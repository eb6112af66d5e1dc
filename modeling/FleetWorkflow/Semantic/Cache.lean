import FleetWorkflow.Async.Prog
import FleetWorkflow.Python.JsonText
import FleetWorkflow.Python.Text
import FleetWorkflow.Python.Value
import FleetWorkflow.Store.KeyedRows

/-!
# The semantic cache

Answers that are kept in Redis under a key of their agent, their collection and the generation of the collection, and are
found again by the similarity of embeddings. Redis is the rows it holds; a value is kept as what it is read back as, the
number of a counter or the entry of a payload, and an entry may expire at any time. How Redis reads the pattern of `KEYS`
is not modelled, except that a text without special characters stands for itself.
-/

namespace FleetWorkflow.Semantic

open Python Async Store

/-! ## Similarity -/

/-- The rounds of `sum(...)` over floats, with the compensation of what rounding loses. -/
def sumFrom (total compensation : Float) : List Float → Float
  | [] => if compensation != 0 && compensation.isFinite then total + compensation else total
  | x :: rest =>
    let next := total + x
    let lost := if x.abs ≤ total.abs then (total - next) + x else (x - next) + total
    sumFrom next (compensation + lost) rest

/-- `sum(...)` over floats, from the integer zero. -/
def sum : List Float → Float
  | [] => 0
  | x :: rest => sumFrom (0 + x) 0 rest

/-- The cosine of two embeddings, which must be of one length. -/
def cosine (a b : List Float) : Except Exc Float := do
  if a.length ≠ b.length then
    throw ⟨.valueError, if b.length < a.length then "zip() argument 2 is shorter than argument 1"
      else "zip() argument 2 is longer than argument 1"⟩
  let dot := sum (List.zipWith (· * ·) a b)
  let normA := (sum (a.map fun x => x * x)).sqrt
  let normB := (sum (b.map fun y => y * y)).sqrt
  if normA == 0 || normB == 0 then return 0
  if normA * normB == 0 then throw ⟨.external, "float division by zero"⟩
  return dot / (normA * normB)

/-! ## Redis -/

/-- What is kept with an answer. -/
structure Entry where
  embedding : List Float
  answer : String

/-- A value of Redis: what `INCR` counts, or the payload of an entry. -/
inductive Value where
  | number (n : ℕ)
  | payload (entry : Entry)

/-- `int(raw)`. -/
def Value.int : Value → Except Exc ℕ
  | .number n => .ok n
  | .payload _ => .error ⟨.valueError, "invalid literal for int() with base 10"⟩

/-- `json.loads(raw)`, read as an entry. -/
def Value.entry : Value → Except Exc Entry
  | .payload entry => .ok entry
  | .number _ => .error ⟨.typeError, "'int' object is not subscriptable"⟩

/-- The keys of Redis and their values. -/
abbrev Redis := KeyedRows (String × Value) String Prod.fst

namespace Redis

variable (redis : Redis)

/-- `GET`. -/
def get (key : String) : Option Value := (redis.find key).map Prod.snd

/-- `SET`. -/
def set (key : String) (value : Value) : Redis := (redis.deleteWhere fun row => row.1 = key).addIfNew (key, value)

/-- `INCR`, with its reply. -/
def incr (key : String) : Redis × Except Exc ℕ :=
  match redis.get key with
  | none => (redis.set key (.number 1), .ok 1)
  | some (.number n) => (redis.set key (.number (n + 1)), .ok (n + 1))
  | some (.payload _) => (redis, .error ⟨.external, "value is not an integer or out of range"⟩)

/-- A key reaches the end of its time; counters have none. -/
def expire (key : String) : Redis :=
  redis.deleteWhere fun row =>
    match row.2 with
    | .payload _ => row.1 = key
    | .number _ => false

variable {redis} {key : String} {value : Value} {row : String × Value}

/-- What a key is read as is its row. -/
theorem get_eq_some : redis.get key = some value ↔ (key, value) ∈ redis.rows := by
  rw [get, Option.map_eq_some_iff]
  constructor
  · intro ⟨row, hfind, hvalue⟩
    obtain ⟨hrow, rfl⟩ := redis.find_eq_some.mp hfind
    rw [← hvalue]
    exact hrow
  · intro h
    exact ⟨(key, value), redis.find_eq_some.mpr ⟨h, rfl⟩, rfl⟩

/-- The rows after a key is set. -/
theorem mem_set : row ∈ (redis.set key value).rows ↔ row = (key, value) ∨ row ∈ redis.rows ∧ row.1 ≠ key := by
  rw [set, KeyedRows.mem_addIfNew, KeyedRows.mem_deleteWhere, decide_eq_false_iff_not, or_comm]
  apply or_congr_left
  apply and_iff_left
  intro earlier hearlier
  simpa using ((redis.mem_deleteWhere _ _).mp hearlier).2

/-- What the keys are read as after one of them is set. -/
theorem get_set (key' : String) : (redis.set key value).get key' = if key' = key then some value else redis.get key' := by
  apply Option.ext
  intro found
  rw [get_eq_some, mem_set]
  by_cases h : key' = key
  · simp [h, eq_comm]
  · simp [h, get_eq_some]

/-- Expiry takes rows away. -/
theorem mem_of_mem_expire (h : row ∈ (redis.expire key).rows) : row ∈ redis.rows := ((redis.mem_deleteWhere _ _).mp h).1

/-- Expiry leaves the counters. -/
theorem number_mem_expire {n : ℕ} (key key' : String) :
    (key', .number n) ∈ (redis.expire key).rows ↔ (key', .number n) ∈ redis.rows := by
  simp [expire]

end Redis

/-! ## Calls -/

/-- `str(uuid.uuid4())`: hexadecimal digits and hyphens. -/
structure UuidText where
  text : String
  form : text.toList.all (fun c => c.isAlphanum || c = '-')

/-- What the coroutines of the cache wait for, and the end of a key's time. -/
inductive Call where
  | get (key : String)
  | set (key : String) (entry : Entry) (ex : ℤ)
  | keys (pattern : String)
  | incr (key : String)
  | uuid4
  | readContent (collectionId : ℤ)
  | generate (question content : String)
  | expire (key : String)

/-- The type of a reply. -/
abbrev Reply : Call → Type
  | .get _ => Option Value
  | .set _ _ _ => Unit
  | .keys _ => List String
  | .incr _ => ℕ
  | .uuid4 => UuidText
  | .readContent _ => String
  | .generate _ _ => String
  | .expire _ => Unit

/-- Coroutines of the cache. -/
abbrev Coroutine (α : Type) := Prog Call Reply Exc α

/-- Wait for a call. -/
abbrev await (c : Call) : Coroutine (Reply c) := Prog.call c

/-- A character that is not read as itself in a pattern of `KEYS`. -/
def isSpecial (c : Char) : Bool := c = '*' || c = '?' || c = '[' || c = '\\'

/-- A text that is read as itself in a pattern. -/
def Literal (text : String) : Prop := text.toList.all (fun c => !isSpecial c) = true

instance (text : String) : Decidable (Literal text) := inferInstanceAs (Decidable (_ = true))

/-- How Redis reads patterns. -/
structure Glob where
  matchesKey : String → String → Bool
  literal : ∀ text key, Literal text → matchesKey (text ++ "*") key = startsWith key text

/-- The surroundings: which calls fail, what is drawn, read and generated, and in which order Redis lists keys. -/
structure Env where
  glob : Glob
  fault : ℕ → Option Exc
  uuid : ℕ → UuidText
  content : ℕ → ℤ → String
  generated : ℕ → String → String → String
  order : ℕ → List String → List String
  mem_order : ∀ tick keys key, key ∈ order tick keys ↔ key ∈ keys

/-- Redis, and the number of calls that were made. -/
structure World where
  redis : Redis
  tick : ℕ

/-- Nothing was kept and nothing was called. -/
def World.initial : World := ⟨.empty, 0⟩

/-- What a call that does not fail does to Redis, and its reply. -/
def World.respond (env : Env) (w : World) : (c : Call) → Redis × Except Exc (Reply c)
  | .get key => (w.redis, .ok (w.redis.get key))
  | .set key entry _ => (w.redis.set key (.payload entry), .ok ())
  | .keys pattern =>
    (w.redis, .ok (env.order w.tick ((w.redis.rows.map Prod.fst).filter (env.glob.matchesKey pattern))))
  | .incr key => w.redis.incr key
  | .uuid4 => (w.redis, .ok (env.uuid w.tick))
  | .readContent collectionId => (w.redis, .ok (env.content w.tick collectionId))
  | .generate question content => (w.redis, .ok (env.generated w.tick question content))
  | .expire key => (w.redis.expire key, .ok ())

/-- A call fails without an effect, or is answered. -/
def World.answer (env : Env) (w : World) (c : Call) : World × Except Exc (Reply c) :=
  match env.fault w.tick with
  | some error => (⟨w.redis, w.tick + 1⟩, .error error)
  | none => (⟨(w.respond env c).1, w.tick + 1⟩, (w.respond env c).2)

/-! ## The cache -/

/-- Under what an answer is kept. -/
structure Scope where
  agentId : String
  collectionId : ℤ
  generation : ℕ
deriving DecidableEq

/-- `str(...)` of an integer. -/
def decimal (n : ℤ) : String := String.ofList (reprInt n)

/-- The key of the counter of a collection. -/
def generationKey (collectionId : ℤ) : String := "semcache:gen:" ++ decimal collectionId

/-- What the keys of a scope start with. -/
def Scope.prefixOf (scope : Scope) : String :=
  "semcache:" ++ scope.agentId ++ ":" ++ decimal scope.collectionId ++ ":" ++ decimal scope.generation ++ ":"

/-- The pattern with which the keys of a scope are looked for. -/
def Scope.pattern (scope : Scope) : String := scope.prefixOf ++ "*"

/-- A key of a scope. -/
def Scope.key (scope : Scope) (uuid : UuidText) : String := scope.prefixOf ++ uuid.text

/-- An answer of the cache. -/
structure CacheHit where
  answer : String
  cached : Bool
deriving DecidableEq

/-- The generation of a collection. -/
def generation (collectionId : ℤ) : Coroutine ℕ := do
  match ← await (.get (generationKey collectionId)) with
  | some raw => Prog.ofExcept raw.int
  | none => return 0

/-- The best entry of the keys that are left, and the best so far. -/
def scan (embedding : List Float) : List String → Float → Option String → Coroutine (Float × Option String)
  | [], bestScore, bestAnswer => return (bestScore, bestAnswer)
  | key :: rest, bestScore, bestAnswer => do
    match ← await (.get key) with
    | none => scan embedding rest bestScore bestAnswer
    | some raw =>
      let entry ← Prog.ofExcept raw.entry
      let score ← Prog.ofExcept (cosine embedding entry.embedding)
      if bestScore < score then scan embedding rest score (some entry.answer)
      else scan embedding rest bestScore bestAnswer

/-- A best answer is a hit when its score reaches the threshold. -/
def hitOf (threshold : Float) : Float × Option String → Option CacheHit
  | (bestScore, some answer) => if threshold ≤ bestScore then some ⟨answer, true⟩ else none
  | (_, none) => none

/-- A semantic cache is its threshold. -/
structure SemanticCache where
  threshold : Float

/-- Look for a kept answer. -/
def SemanticCache.lookup (cache : SemanticCache) (agentId : String) (collectionId : ℤ) (embedding : List Float) :
    Coroutine (Option CacheHit) := do
  let generation ← generation collectionId
  let keys ← await (.keys (Scope.pattern ⟨agentId, collectionId, generation⟩))
  let best ← scan embedding keys (-1.0) none
  return hitOf cache.threshold best

/-- How long an entry is kept when nothing else is said. -/
def defaultTtlSeconds : ℤ := 24 * 3600

/-- Keep an answer. -/
def store (agentId : String) (collectionId : ℤ) (embedding : List Float) (answer : String) (ttlSeconds : ℤ) :
    Coroutine Unit := do
  let generation ← generation collectionId
  let uuid ← await .uuid4
  await (.set (Scope.key ⟨agentId, collectionId, generation⟩ uuid) ⟨embedding, answer⟩ ttlSeconds)

/-- Count the generation of a collection up. -/
def invalidateCollection (collectionId : ℤ) : Coroutine Unit := do
  let _ ← await (.incr (generationKey collectionId))
  return ()

end FleetWorkflow.Semantic
