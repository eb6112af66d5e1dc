import FleetWorkflow.Core.Call
import FleetWorkflow.Store.Table

/-!
# The stores behind the calls

The database tables, Redis, the pause caches and the checkpoints, and what each call does to them.
A call to a store either fails without an effect or has its effect and the reply computed from the
stores; the surroundings decide which, and they also reply for the model, the tools and the reads
of other tables. Calls inside the process do not fail.
-/

namespace FleetWorkflow.Store

open Python Async Core

/-- Everything that outlives a request. -/
structure Stores where
  agents : Table AgentRow AgentRow.id
  approvals : Table ApprovalRow ApprovalRow.id
  redis : String → Option String
  caches : ℕ → String → Option (Bool × Time)
  checkpoints : String → Option SavedRun
  uuids : ℕ

namespace Stores

/-- The stores before anything happened. -/
def initial : Stores where
  agents := .empty
  approvals := .empty
  redis _ := none
  caches _ _ := none
  checkpoints _ := none
  uuids := 0

variable (s : Stores)

/-- The row of an agent name. -/
def agentNamed (name : String) : Option AgentRow := s.agents.rows.find? fun row => row.name = name

/-- A name is used by another row. -/
def nameTaken (name : String) (exceptId : Option ℕ) : Bool :=
  s.agents.rows.any fun row => row.name = name && some row.id ≠ exceptId

/-- An agent is referred to by an approval. -/
def referenced (agentId : ℕ) : Bool := s.approvals.rows.any fun row => row.agentId = agentId

/-- The exception of a violated constraint. -/
def integrityError : Exc := ⟨.integrityError, "IntegrityError"⟩

/-- The exception of an update that matches no row. -/
def staleDataError : Exc := ⟨.staleData, "StaleDataError"⟩

/-- What a call does to the stores, and its reply. `given` is what the surroundings say: a failure
of the call, or the reply of what is not modelled; `now` is the time. -/
def respond (now : Time) : (c : Call) → Except Exc (Reply c) → Stores × Except Exc (Reply c)
  | .uuid4, _ => ({ s with uuids := s.uuids + 1 }, .ok (Nat.repr s.uuids))
  | .uuidToken, given => (s, .ok (match given with | .ok token => token | .error _ => ""))
  | .readPauseCache killswitch agent, _ => (s, .ok (now, s.caches killswitch agent))
  | .writePauseCache killswitch agent paused time, _ =>
    let cache := Function.update (s.caches killswitch) agent (some (paused, time))
    ({ s with caches := Function.update s.caches killswitch cache }, .ok ())
  | .enter _ _, _ => (s, .ok ())
  | .resumeStarted _ _ _, _ => (s, .ok ())
  | _, .error error => (s, .error error)
  | .getApproval id, .ok _ => (s, .ok (s.approvals.row id))
  | .findApprovalByRun runId, .ok _ =>
    match s.approvals.rows.filter fun row => row.runId = runId with
    | [] => (s, .ok none)
    | [row] => (s, .ok (some row))
    | _ => (s, .error ⟨.multipleResults, "Multiple rows were found when one or none was required"⟩)
  | .insertApproval draft, .ok _ =>
    if (s.agents.row draft.agentId).isSome then
      ({ s with approvals := s.approvals.insert (draft.row s.approvals.next) (draft.row_id _) },
        .ok (draft.row s.approvals.next))
    else (s, .error integrityError)
  | .commitDecision id editedPayload status decidedBy, .ok _ =>
    if (s.approvals.row id).isSome then
      let approvals := s.approvals.update id (·.decided editedPayload status decidedBy now)
        (ApprovalRow.decided_id editedPayload status decidedBy now)
      ({ s with approvals := approvals }, .ok ())
    else (s, .error staleDataError)
  | .getAgent id, .ok _ => (s, .ok (s.agents.row id))
  | .findAgent name, .ok _ => (s, .ok (s.agentNamed name))
  | .insertAgent body, .ok _ =>
    if s.nameTaken body.name none then (s, .error integrityError)
    else ({ s with agents := s.agents.insert (body.row s.agents.next) (body.row_id _) }, .ok (body.row s.agents.next))
  | .updateAgent id body, .ok _ =>
    if (s.agents.row id).isNone then (s, .error staleDataError)
    else if s.nameTaken body.name (some id) then (s, .error integrityError)
    else ({ s with agents := s.agents.update id (·.overwritten body) (AgentRow.overwritten_id body) }, .ok ())
  | .deleteAgent id, .ok _ =>
    if s.referenced id then (s, .error integrityError)
    else ({ s with agents := s.agents.delete id }, .ok ())
  | .setAgentStatus id status, .ok _ =>
    if (s.agents.row id).isNone then (s, .error staleDataError)
    else ({ s with agents := s.agents.update id (·.withStatus status) (AgentRow.withStatus_id status) }, .ok ())
  | .redisGet key, .ok _ => (s, .ok (s.redis key))
  | .redisSet key value, .ok _ => ({ s with redis := Function.update s.redis key (some value) }, .ok ())
  | .loadCheckpoint thread, .ok _ => (s, .ok (s.checkpoints thread))
  | .putCheckpoint thread run, .ok _ =>
    ({ s with checkpoints := Function.update s.checkpoints thread (some run) }, .ok ())
  | .buildClient, .ok reply => (s, .ok reply)
  | .llm _ _ _ _, .ok reply => (s, .ok reply)
  | .tool _ _ _, .ok reply => (s, .ok reply)
  | .query _ _, .ok reply => (s, .ok reply)

/-! ## What a call leaves as it is -/

section Frames

variable {s : Stores} {now : Time} {c : Call} {given : Except Exc (Reply c)}

/-- The calls that write to the approvals. -/
def WritesApprovals : Call → Prop
  | .insertApproval _ | .commitDecision _ _ _ _ => True
  | _ => False

/-- The calls that write to the agents. -/
def WritesAgents : Call → Prop
  | .insertAgent _ | .updateAgent _ _ | .deleteAgent _ | .setAgentStatus _ _ => True
  | _ => False

/-- The calls that write to the checkpoint of a thread. -/
def WritesCheckpoint (thread : String) : Call → Prop
  | .putCheckpoint saved _ => saved = thread
  | _ => False

/-- The calls that write to a key of Redis. -/
def WritesKey (key : String) : Call → Prop
  | .redisSet written _ => written = key
  | _ => False

/-- Any other call leaves the approvals. -/
theorem respond_approvals (hc : ¬ WritesApprovals c) : (s.respond now c given).1.approvals = s.approvals := by
  cases c with
  | insertApproval draft => exact absurd trivial hc
  | commitDecision id editedPayload status decidedBy => exact absurd trivial hc
  | _ =>
    cases given
    all_goals simp only [respond]
    all_goals (repeat' split)
    all_goals rfl

/-- Any other call leaves the agents. -/
theorem respond_agents (hc : ¬ WritesAgents c) : (s.respond now c given).1.agents = s.agents := by
  cases c with
  | insertAgent body => exact absurd trivial hc
  | updateAgent id body => exact absurd trivial hc
  | deleteAgent id => exact absurd trivial hc
  | setAgentStatus id status => exact absurd trivial hc
  | _ =>
    cases given
    all_goals simp only [respond]
    all_goals (repeat' split)
    all_goals rfl

/-- Any other call leaves the checkpoint of a thread. -/
theorem respond_checkpoints {thread : String} (hc : ¬ WritesCheckpoint thread c) :
    (s.respond now c given).1.checkpoints thread = s.checkpoints thread := by
  cases c with
  | putCheckpoint saved run =>
    cases given with
    | error error => rfl
    | ok value => exact Function.update_of_ne (fun h => hc h.symm) _ _
  | _ =>
    cases given
    all_goals simp only [respond]
    all_goals (repeat' split)
    all_goals rfl

/-- Any other call leaves a key of Redis. -/
theorem respond_redis {key : String} (hc : ¬ WritesKey key c) :
    (s.respond now c given).1.redis key = s.redis key := by
  cases c with
  | redisSet written value =>
    cases given with
    | error error => rfl
    | ok value => exact Function.update_of_ne (fun h => hc h.symm) _ _
  | _ =>
    cases given
    all_goals simp only [respond]
    all_goals (repeat' split)
    all_goals rfl

end Frames

end Stores

/-! ## Worlds -/

/-- What the surroundings do: the time and the given reply at each tick. -/
structure Env where
  now : ℕ → Time
  given : ℕ → (c : Call) → Except Exc (Reply c)

/-- The stores, and how many calls were answered so far. -/
structure World where
  tick : ℕ
  stores : Stores

/-- Answer one call. -/
def World.answer (env : Env) (w : World) (c : Call) : World × Except Exc (Reply c) :=
  let answered := w.stores.respond (env.now w.tick) c (env.given w.tick c)
  (⟨w.tick + 1, answered.1⟩, answered.2)

/-- The world before anything happened. -/
def World.initial : World := ⟨0, .initial⟩

/-- The protocol of a world: any call is allowed, and the surroundings answer it. -/
def worldProtocol (env : Env) : Protocol Call Reply Exc World where
  allowed _ _ := True
  answers w c reply w' := w.answer env c = (w', reply)

/-- An answer moves the clock by one tick and the stores as the call says. -/
theorem World.answer_spec {env : Env} {w w' : World} {c : Call} {reply : Except Exc (Reply c)}
    (h : w.answer env c = (w', reply)) : w'.tick = w.tick + 1 ∧
      w.stores.respond (env.now w.tick) c (env.given w.tick c) = (w'.stores, reply) := by
  have hworld : (w.answer env c).1 = w' := congrArg Prod.fst h
  have hreply : (w.answer env c).2 = reply := congrArg Prod.snd h
  rw [← hworld, ← hreply]
  exact ⟨rfl, rfl⟩

/-- What a coroutine ensures in a world is what running it leads to. -/
theorem run_of_ensures {env : Env} {α : Type} {p : Coroutine α} {w : World}
    {post : Except Exc α → World → Prop} (h : (worldProtocol env).Ensures post p w) :
    post (p.run (World.answer env) w).2 (p.run (World.answer env) w).1 :=
  (h.run id (fun _ => True) (fun _ _ _ _ => ⟨rfl, trivial⟩) trivial).1

/-! ## What single calls do -/

section Calls

variable {env : Env} {w w' : World}

/-- Reading an agent. -/
theorem World.answer_getAgent {id : ℕ} {reply : Except Exc (Option AgentRow)}
    (h : w.answer env (.getAgent id) = (w', reply)) :
    w'.tick = w.tick + 1 ∧ w'.stores = w.stores ∧ ∀ row, reply = .ok row → row = w.stores.agents.row id := by
  obtain ⟨htick, h⟩ := w.answer_spec h
  refine ⟨htick, ?_⟩
  cases hgiven : env.given w.tick (.getAgent id) with
  | error error =>
    rw [hgiven] at h
    refine ⟨(congrArg Prod.fst h).symm, fun row hrow => ?_⟩
    rw [hrow] at h
    cases congrArg Prod.snd h
  | ok value =>
    rw [hgiven] at h
    refine ⟨(congrArg Prod.fst h).symm, fun row hrow => ?_⟩
    rw [hrow] at h
    exact (Except.ok.inj (congrArg Prod.snd h)).symm

/-- Reading an approval; the row that is found is the one of the id. -/
theorem World.answer_getApproval {id : ℕ} {reply : Except Exc (Option ApprovalRow)}
    (h : w.answer env (.getApproval id) = (w', reply)) :
    w'.stores = w.stores ∧ ∀ row, reply = .ok row → row = w.stores.approvals.row id := by
  have hspec := (w.answer_spec h).2
  cases hgiven : env.given w.tick (.getApproval id) with
  | error error =>
    rw [hgiven] at hspec
    refine ⟨(congrArg Prod.fst hspec).symm, fun row hrow => ?_⟩
    rw [hrow] at hspec
    cases congrArg Prod.snd hspec
  | ok value =>
    rw [hgiven] at hspec
    refine ⟨(congrArg Prod.fst hspec).symm, fun row hrow => ?_⟩
    rw [hrow] at hspec
    exact (Except.ok.inj (congrArg Prod.snd hspec)).symm

/-- Committing a decision fails without an effect, or decides a row that is there. -/
theorem World.answer_commitDecision {id : ℕ} {editedPayload : Option Dict} {status decidedBy : String}
    {reply : Except Exc Unit} (h : w.answer env (.commitDecision id editedPayload status decidedBy) = (w', reply)) :
    (∃ error, reply = .error error) ∧ w'.stores = w.stores ∨
      reply = .ok () ∧ ∃ row time, w.stores.approvals.row id = some row ∧ w'.stores = { w.stores with
        approvals := w.stores.approvals.update id (·.decided editedPayload status decidedBy time)
          (ApprovalRow.decided_id editedPayload status decidedBy time) } ∧
        w'.stores.approvals.row id = some (row.decided editedPayload status decidedBy time) := by
  have hspec := (w.answer_spec h).2
  cases hgiven : env.given w.tick (.commitDecision id editedPayload status decidedBy) with
  | error error =>
    rw [hgiven] at hspec
    exact .inl ⟨⟨error, (congrArg Prod.snd hspec).symm⟩, (congrArg Prod.fst hspec).symm⟩
  | ok value =>
    rw [hgiven] at hspec
    cases hrow : w.stores.approvals.row id with
    | none =>
      simp only [Stores.respond, hrow, Option.isSome_none, Bool.false_eq_true, if_false] at hspec
      exact .inl ⟨⟨_, (congrArg Prod.snd hspec).symm⟩, (congrArg Prod.fst hspec).symm⟩
    | some row =>
      simp only [Stores.respond, hrow, Option.isSome_some, if_true] at hspec
      obtain ⟨hstores, hreply⟩ := Prod.mk.inj hspec
      refine .inr ⟨hreply.symm, row, _, rfl, hstores.symm, ?_⟩
      rw [← hstores]
      simp [hrow]

/-- Looking up an agent by its name. -/
theorem World.answer_findAgent {name : String} {reply : Except Exc (Option AgentRow)}
    (h : w.answer env (.findAgent name) = (w', reply)) :
    w'.tick = w.tick + 1 ∧ w'.stores = w.stores ∧ ∀ row, reply = .ok row → row = w.stores.agentNamed name := by
  obtain ⟨htick, h⟩ := w.answer_spec h
  refine ⟨htick, ?_⟩
  cases hgiven : env.given w.tick (.findAgent name) with
  | error error =>
    rw [hgiven] at h
    refine ⟨(congrArg Prod.fst h).symm, fun row hrow => ?_⟩
    rw [hrow] at h
    cases congrArg Prod.snd h
  | ok value =>
    rw [hgiven] at h
    refine ⟨(congrArg Prod.fst h).symm, fun row hrow => ?_⟩
    rw [hrow] at h
    exact (Except.ok.inj (congrArg Prod.snd h)).symm

/-- Adding an agent changes nothing, or adds it under a free name. -/
theorem World.answer_insertAgent {body : AgentIn} {reply : Except Exc AgentRow}
    (h : w.answer env (.insertAgent body) = (w', reply)) :
    w'.stores = w.stores ∨ w.stores.nameTaken body.name none = false ∧ w'.stores = { w.stores with
      agents := w.stores.agents.insert (body.row w.stores.agents.next) (body.row_id _) } := by
  have hspec := (w.answer_spec h).2
  cases hgiven : env.given w.tick (.insertAgent body) with
  | error error =>
    rw [hgiven] at hspec
    exact .inl (congrArg Prod.fst hspec).symm
  | ok value =>
    rw [hgiven] at hspec
    have hstores := congrArg Prod.fst hspec
    simp only [Stores.respond] at hstores
    split at hstores
    · exact .inl hstores.symm
    · rename_i hfree
      exact .inr ⟨by simpa using hfree, hstores.symm⟩

/-- Updating an agent changes nothing, or overwrites it with a name that no other row has. -/
theorem World.answer_updateAgent {id : ℕ} {body : AgentIn} {reply : Except Exc Unit}
    (h : w.answer env (.updateAgent id body) = (w', reply)) :
    w'.stores = w.stores ∨ w.stores.nameTaken body.name (some id) = false ∧ w'.stores = { w.stores with
      agents := w.stores.agents.update id (·.overwritten body) (AgentRow.overwritten_id body) } := by
  have hspec := (w.answer_spec h).2
  cases hgiven : env.given w.tick (.updateAgent id body) with
  | error error =>
    rw [hgiven] at hspec
    exact .inl (congrArg Prod.fst hspec).symm
  | ok value =>
    rw [hgiven] at hspec
    have hstores := congrArg Prod.fst hspec
    simp only [Stores.respond] at hstores
    split at hstores
    · exact .inl hstores.symm
    · split at hstores
      · exact .inl hstores.symm
      · rename_i hfree
        exact .inr ⟨by simpa using hfree, hstores.symm⟩

/-- Deleting an agent changes nothing, or removes it. -/
theorem World.answer_deleteAgent {id : ℕ} {reply : Except Exc Unit}
    (h : w.answer env (.deleteAgent id) = (w', reply)) :
    w'.stores = w.stores ∨ w'.stores = { w.stores with agents := w.stores.agents.delete id } := by
  have hspec := (w.answer_spec h).2
  cases hgiven : env.given w.tick (.deleteAgent id) with
  | error error =>
    rw [hgiven] at hspec
    exact .inl (congrArg Prod.fst hspec).symm
  | ok value =>
    rw [hgiven] at hspec
    have hstores := congrArg Prod.fst hspec
    simp only [Stores.respond] at hstores
    split at hstores
    · exact .inl hstores.symm
    · exact .inr hstores.symm

/-- Setting a status fails without an effect, or succeeds. -/
theorem World.answer_setAgentStatus {id : ℕ} {status : String} {reply : Except Exc Unit}
    (h : w.answer env (.setAgentStatus id status) = (w', reply)) :
    w'.tick = w.tick + 1 ∧ ((∃ error, reply = .error error) ∧ w'.stores = w.stores ∨
      reply = .ok () ∧ w'.stores = { w.stores with
        agents := w.stores.agents.update id (·.withStatus status) (AgentRow.withStatus_id status) }) := by
  obtain ⟨htick, hspec⟩ := w.answer_spec h
  refine ⟨htick, ?_⟩
  cases hgiven : env.given w.tick (.setAgentStatus id status) with
  | error error =>
    rw [hgiven] at hspec
    exact .inl ⟨⟨error, (congrArg Prod.snd hspec).symm⟩, (congrArg Prod.fst hspec).symm⟩
  | ok value =>
    rw [hgiven] at hspec
    have hstores := congrArg Prod.fst hspec
    have hreply := congrArg Prod.snd hspec
    simp only [Stores.respond] at hstores hreply
    split at hstores
    · rename_i hnone
      rw [if_pos hnone] at hreply
      exact .inl ⟨⟨_, hreply.symm⟩, hstores.symm⟩
    · rename_i hsome
      rw [if_neg hsome] at hreply
      exact .inr ⟨hreply.symm, hstores.symm⟩

/-- Writing a Redis key that is not refused. -/
theorem World.answer_redisSet {key value : String} {reply : Except Exc Unit}
    (h : w.answer env (.redisSet key value) = (w', reply))
    (hgiven : env.given w.tick (.redisSet key value) = .ok ()) :
    w'.stores = { w.stores with redis := Function.update w.stores.redis key (some value) } := by
  have hspec := (w.answer_spec h).2
  rw [hgiven] at hspec
  exact (congrArg Prod.fst hspec).symm

end Calls

/-! ## Surroundings in which nothing fails -/

/-- Some reply to every call. -/
def someReply : (c : Call) → Reply c
  | .getApproval _ | .findApprovalByRun _ => none
  | .insertApproval draft => draft.row 0
  | .getAgent _ | .findAgent _ => none
  | .insertAgent body => body.row 0
  | .redisGet _ => none
  | .readPauseCache _ _ => (0, none)
  | .uuid4 | .uuidToken => ""
  | .loadCheckpoint _ => none
  | .llm _ _ _ _ => ⟨"", .null⟩
  | .tool _ _ _ | .query _ _ => .null
  | .commitDecision _ _ _ _ | .updateAgent _ _ | .deleteAgent _ | .setAgentStatus _ _ | .redisSet _ _ => ()
  | .writePauseCache _ _ _ _ | .putCheckpoint _ _ | .enter _ _ | .resumeStarted _ _ _ | .buildClient => ()

/-- Nothing fails, and whatever is asked of the surroundings is empty. -/
def Env.calm : Env where
  now _ := 0
  given _ c := .ok (someReply c)

end FleetWorkflow.Store
