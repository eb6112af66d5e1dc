import FleetWorkflow.Api.AgentsAdmin
import FleetWorkflow.Store.World

/-!
# The two records of a pause

A paused agent is recorded twice: in the status column of its row, and in a Redis flag under its
name. Pausing and resuming write both; creating and renaming write the row only, so that a name can
come to a row whose status its flag does not tell.
-/

namespace FleetWorkflow.KillSwitchRecords

open Python Async Core Store Api

/-- An operation of the agent registry. -/
inductive AdminOp where
  | create (body : AgentIn)
  | update (agentId : ℕ) (body : AgentIn)
  | delete (agentId : ℕ)
  | pause (agentId : ℕ)
  | resume (agentId : ℕ)

/-- The request handler of an operation. -/
def AdminOp.task : AdminOp → Coroutine Unit
  | .create body => discard (createAgent body)
  | .update agentId body => discard (updateAgent agentId body)
  | .delete agentId => deleteAgent agentId
  | .pause agentId => pauseAgent agentId
  | .resume agentId => resumeAgent agentId

/-- Handle one operation. -/
def serveAdmin (env : Env) (w : World) (op : AdminOp) : World := (op.task.run (World.answer env) w).1

/-- The worlds after each of the operations, the first one included. -/
def adminRun (env : Env) (w : World) (ops : List AdminOp) : List World := ops.scanl (serveAdmin env) w

/-- The pause flag of a name is set. -/
def Flagged (s : Stores) (name : String) : Prop := isFlagSet (s.redis (pauseKey name)) = true

instance (s : Stores) (name : String) : Decidable (Flagged s name) := inferInstanceAs (Decidable (_ = true))

/-- The flag under the current name of every agent tells its status. -/
def Agree (s : Stores) : Prop :=
  ∀ id row, s.agents.row id = some row → (Flagged s row.name ↔ row.status = "paused")

/-- No two agents have one name. -/
def NamesDistinct (s : Stores) : Prop :=
  ∀ id id' row row', s.agents.row id = some row → s.agents.row id' = some row' → row.name = row'.name → id = id'

/-- The Redis write at the end of a pause or a resume of an agent does not fail. -/
def FlagWritten (env : Env) (w : World) (agentId : ℕ) (value : String) : Prop :=
  ∀ row, w.stores.agents.row agentId = some row →
    env.given (w.tick + 2) (.redisSet (pauseKey row.name) value) = .ok ()

/-- When an operation keeps the two records in agreement: a new agent's name has no flag left over
from an earlier agent, a changed name has the flag that its row's status asks for, and the flag is
written. A name that another row has is refused, and so is not asked about. -/
def Careful (env : Env) (w : World) : AdminOp → Prop
  | .create body => w.stores.nameTaken body.name none = false → ¬ Flagged w.stores body.name
  | .update agentId body => w.stores.nameTaken body.name (some agentId) = false →
      ∀ row, w.stores.agents.row agentId = some row → row.name ≠ body.name →
        (Flagged w.stores body.name ↔ row.status = "paused")
  | .delete _ => True
  | .pause agentId => FlagWritten env w agentId "1"
  | .resume agentId => FlagWritten env w agentId "0"

/-- Every operation of a run is careful in the world it meets. -/
def CarefulRun (env : Env) : World → List AdminOp → Prop
  | _, [] => True
  | w, op :: rest => Careful env w op ∧ CarefulRun env (serveAdmin env w op) rest

/-! ## What the handlers do to the stores -/

/-- The invariant: the two records agree and names are distinct. -/
def Consistent (s : Stores) : Prop := Agree s ∧ NamesDistinct s

/-- A free name is no row's name. -/
theorem name_ne_of_not_taken {s : Stores} {name : String} {exceptId : Option ℕ}
    (h : s.nameTaken name exceptId = false) {id : ℕ} {row : AgentRow} (hrow : s.agents.row id = some row)
    (hid : some id ≠ exceptId) : row.name ≠ name := by
  intro hname
  have hmem : row ∈ s.agents.rows := s.agents.mem_rows.mpr ⟨id, hrow⟩
  have hkey : row.id = id := s.agents.keyed id row hrow
  have hany := List.any_eq_false.mp h row hmem
  rw [hkey] at hany
  exact hany (by simpa using ⟨hname, hid⟩)

/-- A new agent under a free name without a flag. -/
theorem Consistent.insert {s : Stores} (h : Consistent s) {body : AgentIn}
    (hfree : s.nameTaken body.name none = false) (hflag : ¬ Flagged s body.name) :
    Consistent { s with agents := s.agents.insert (body.row s.agents.next) (body.row_id _) } := by
  have hother : ∀ id row, s.agents.row id = some row → row.name ≠ body.name :=
    fun id row hrow => name_ne_of_not_taken hfree hrow (by simp)
  refine ⟨fun id row hrow => ?_, fun id id' row row' hrow hrow' hname => ?_⟩
  · simp only [Table.row_insert] at hrow
    split at hrow
    · cases hrow
      have hactive : ¬ (body.row s.agents.next).status = "paused" := by
        show ¬ "active" = "paused"
        decide
      exact ⟨fun hset => absurd hset hflag, fun hpaused => absurd hpaused hactive⟩
    · exact h.1 id row hrow
  · simp only [Table.row_insert] at hrow hrow'
    split at hrow <;> split at hrow'
    · omega
    · cases hrow
      exact absurd hname.symm (hother id' row' hrow')
    · cases hrow'
      exact absurd hname (hother id row hrow)
    · exact h.2 id id' row row' hrow hrow' hname

/-- An agent under a free name, or its own, whose flag tells its status. -/
theorem Consistent.overwrite {s : Stores} (h : Consistent s) {agentId : ℕ} {body : AgentIn}
    (hfree : s.nameTaken body.name (some agentId) = false)
    (hflag : ∀ row, s.agents.row agentId = some row → row.name ≠ body.name →
      (Flagged s body.name ↔ row.status = "paused")) :
    Consistent { s with agents := s.agents.update agentId (·.overwritten body) (AgentRow.overwritten_id body) } := by
  have hother : ∀ id row, s.agents.row id = some row → id ≠ agentId → row.name ≠ body.name :=
    fun id row hrow hid => name_ne_of_not_taken hfree hrow (by simpa using hid)
  refine ⟨fun id row hrow => ?_, fun id id' row row' hrow hrow' hname => ?_⟩
  · simp only [Table.row_update] at hrow
    split at hrow
    · obtain ⟨row₀, hrow₀, hrow⟩ := Option.map_eq_some_iff.mp hrow
      rw [← hrow]
      by_cases hsame : row₀.name = body.name
      · have hagree := h.1 agentId row₀ hrow₀
        rw [hsame] at hagree
        exact hagree
      · exact hflag row₀ hrow₀ hsame
    · exact h.1 id row hrow
  · simp only [Table.row_update] at hrow hrow'
    split at hrow <;> split at hrow'
    · omega
    · rename_i hid'
      obtain ⟨row₀, hrow₀, hrow⟩ := Option.map_eq_some_iff.mp hrow
      rw [← hrow] at hname
      exact absurd hname.symm (hother id' row' hrow' hid')
    · rename_i hid _
      obtain ⟨row₀, hrow₀, hrow'⟩ := Option.map_eq_some_iff.mp hrow'
      rw [← hrow'] at hname
      exact absurd hname (hother id row hrow hid)
    · exact h.2 id id' row row' hrow hrow' hname

/-- Without one of the agents. -/
theorem Consistent.delete {s : Stores} (h : Consistent s) (agentId : ℕ) :
    Consistent { s with agents := s.agents.delete agentId } := by
  have hrow : ∀ id row, (s.agents.delete agentId).row id = some row → s.agents.row id = some row := by
    intro id row hrow
    simp only [Table.row_delete] at hrow
    split at hrow
    · cases hrow
    · exact hrow
  exact ⟨fun id row h' => h.1 id row (hrow id row h'),
    fun id id' row row' h₁ h₂ => h.2 id id' row row' (hrow id row h₁) (hrow id' row' h₂)⟩

/-- An agent with a new status and the flag that tells it. -/
theorem Consistent.restatus {s : Stores} (h : Consistent s) {agentId : ℕ} {row : AgentRow}
    (hrow : s.agents.row agentId = some row) {status value : String} (hvalue : value = "1" ↔ status = "paused") :
    Consistent { s with
      agents := s.agents.update agentId (·.withStatus status) (AgentRow.withStatus_id status)
      redis := Function.update s.redis (pauseKey row.name) (some value) } := by
  refine ⟨fun id row' hrow' => ?_, fun id id' row₁ row₂ h₁ h₂ hname => ?_⟩
  · simp only [Table.row_update] at hrow'
    split at hrow'
    · rw [hrow] at hrow'
      cases hrow'
      simpa [Flagged, isFlagSet, AgentRow.withStatus] using hvalue
    · rename_i hid
      have hname : row'.name ≠ row.name := fun hname => hid (h.2 id agentId row' row hrow' hrow hname)
      have hagree := h.1 id row' hrow'
      simpa [Flagged, Function.update_of_ne (mt pauseKey_inj.mp hname)] using hagree
  · have hbefore : ∀ id row', (s.agents.update agentId (·.withStatus status) (AgentRow.withStatus_id status)).row id = some row' →
        ∃ row₀, s.agents.row id = some row₀ ∧ row₀.name = row'.name := by
      intro id row' hrow'
      simp only [Table.row_update] at hrow'
      split at hrow'
      · rename_i hid
        obtain ⟨row₀, hrow₀, hrow'⟩ := Option.map_eq_some_iff.mp hrow'
        exact ⟨row₀, hid ▸ hrow₀, hrow' ▸ rfl⟩
      · exact ⟨row', hrow', rfl⟩
    obtain ⟨row₁', h₁', hname₁⟩ := hbefore id row₁ h₁
    obtain ⟨row₂', h₂', hname₂⟩ := hbefore id' row₂ h₂
    exact h.2 id id' row₁' row₂' h₁' h₂' (by rw [hname₁, hname₂, hname])

/-! ## One operation -/

variable {env : Env} {w : World}

/-- Reading the row again changes nothing. -/
theorem ensures_refreshAgent (id : ℕ) (h : Consistent w.stores) :
    (worldProtocol env).Ensures (fun _ w' => Consistent w'.stores) (refreshAgent id) w := by
  refine Protocol.ensures_call_bind trivial fun reply w' hreply => ?_
  have hstores : Consistent w'.stores := (World.answer_getAgent hreply).2.1.symm ▸ h
  match reply with
  | .error error => exact hstores
  | .ok none => exact hstores
  | .ok (some row) => exact hstores

/-- The row that a handler works on. -/
theorem ensures_agentOr404 (id : ℕ) : (worldProtocol env).Ensures
    (fun result w' => w'.tick = w.tick + 1 ∧ w'.stores = w.stores ∧
      ∀ row, result = .ok row → w.stores.agents.row id = some row) (agentOr404 id) w := by
  refine Protocol.ensures_call_bind trivial fun reply w' hreply => ?_
  obtain ⟨htick, hsame, hrow⟩ := World.answer_getAgent hreply
  match reply with
  | .error error => exact ⟨htick, hsame, fun row h => by cases h⟩
  | .ok none => exact ⟨htick, hsame, fun row h => by cases h⟩
  | .ok (some found) =>
    refine ⟨htick, hsame, fun row h => ?_⟩
    rw [← hrow _ rfl, Except.ok.inj h]

/-- Checking the sensitivity first. -/
theorem ensures_validate_bind {α : Type} {body : AgentIn} {p : Coroutine α}
    {post : Except Exc α → World → Prop} (hinvalid : ∀ error, post (.error error) w)
    (hvalid : (worldProtocol env).Ensures post p w) :
    (worldProtocol env).Ensures post (validate body >>= fun _ => p) w := by
  rw [validate]
  split
  · exact hvalid
  · exact hinvalid _

/-- `create_agent` under a name without a flag. -/
theorem ensures_createAgent (body : AgentIn) (h : Consistent w.stores)
    (hcareful : Careful env w (.create body)) :
    (worldProtocol env).Ensures (fun _ w' => Consistent w'.stores) (createAgent body) w := by
  refine ensures_validate_bind (fun _ => h) (Protocol.ensures_call_bind trivial fun reply w₁ hreply => ?_)
  have hsame := (World.answer_findAgent hreply).2.1
  have hstores : Consistent w₁.stores := hsame.symm ▸ h
  match reply with
  | .error error => exact hstores
  | .ok (some row) => exact hstores
  | .ok none =>
    refine Protocol.ensures_call_bind trivial fun reply w₂ hreply => ?_
    have hstores : Consistent w₂.stores := by
      rcases World.answer_insertAgent hreply with hsame' | ⟨hfree, hinserted⟩
      · rw [hsame', hsame]
        exact h
      · rw [hinserted]
        rw [hsame] at hfree ⊢
        exact h.insert hfree (hcareful hfree)
    cases reply with
    | error error => exact hstores
    | ok row => exact ensures_refreshAgent row.id hstores

/-- `update_agent` to a name whose flag tells the row's status. -/
theorem ensures_updateAgent (agentId : ℕ) (body : AgentIn) (h : Consistent w.stores)
    (hcareful : Careful env w (.update agentId body)) :
    (worldProtocol env).Ensures (fun _ w' => Consistent w'.stores) (updateAgent agentId body) w := by
  refine ensures_validate_bind (fun _ => h) (Protocol.ensures_bind.mpr
    ((ensures_agentOr404 agentId).mono fun result w₁ hfound => ?_))
  obtain ⟨-, hsame, hrow⟩ := hfound
  have hstores₁ : Consistent w₁.stores := hsame.symm ▸ h
  cases result with
  | error error => exact hstores₁
  | ok row =>
    have hkey : row.id = agentId := w.stores.agents.keyed agentId row (hrow row rfl)
    refine Protocol.ensures_call_bind trivial fun reply w₂ hreply => ?_
    have hstores : Consistent w₂.stores := by
      rcases World.answer_updateAgent hreply with hsame' | ⟨hfree, hupdated⟩
      · rw [hsame', hsame]
        exact h
      · rw [hupdated]
        rw [hsame, hkey] at hfree ⊢
        exact h.overwrite hfree (hcareful hfree)
    cases reply with
    | error error => exact hstores
    | ok value => exact ensures_refreshAgent row.id hstores

/-- `delete_agent`. -/
theorem ensures_deleteAgent (agentId : ℕ) (h : Consistent w.stores) :
    (worldProtocol env).Ensures (fun _ w' => Consistent w'.stores) (deleteAgent agentId) w := by
  refine Protocol.ensures_bind.mpr ((ensures_agentOr404 agentId).mono fun result w₁ hfound => ?_)
  obtain ⟨-, hsame, -⟩ := hfound
  have hstores₁ : Consistent w₁.stores := hsame.symm ▸ h
  cases result with
  | error error => exact hstores₁
  | ok row =>
    refine Protocol.ensures_call.mpr ⟨trivial, fun reply w₂ hreply => ?_⟩
    rcases World.answer_deleteAgent hreply with hsame' | hdeleted
    · rw [hsame', hsame]
      exact h
    · rw [hdeleted, hsame]
      exact h.delete row.id

/-- `pause_agent` and `resume_agent`: the status and then the flag that tells it. -/
theorem ensures_restatus (agentId : ℕ) {status value : String} (h : Consistent w.stores)
    (hcareful : FlagWritten env w agentId value) (hvalue : value = "1" ↔ status = "paused") :
    (worldProtocol env).Ensures (fun _ w' => Consistent w'.stores) (do
      let row ← agentOr404 agentId
      await (.setAgentStatus row.id status)
      await (.redisSet (pauseKey row.name) value)) w := by
  refine Protocol.ensures_bind.mpr ((ensures_agentOr404 agentId).mono fun result w₁ hfound => ?_)
  obtain ⟨htick, hsame, hrow⟩ := hfound
  have hstores₁ : Consistent w₁.stores := hsame.symm ▸ h
  cases result with
  | error error => exact hstores₁
  | ok row =>
    have hfound := hrow row rfl
    have hkey : row.id = agentId := w.stores.agents.keyed agentId row hfound
    refine Protocol.ensures_call_bind trivial fun reply w₂ hreply => ?_
    obtain ⟨htick', ⟨⟨error, herror⟩, hsame'⟩ | ⟨hok, hupdated⟩⟩ := World.answer_setAgentStatus hreply
    · subst herror
      show Consistent w₂.stores
      rw [hsame', hsame]
      exact h
    · subst hok
      refine Protocol.ensures_call.mpr ⟨trivial, fun reply w₃ hreply => ?_⟩
      have hgiven : env.given w₂.tick (.redisSet (pauseKey row.name) value) = .ok () := by
        rw [htick', htick]
        exact hcareful row hfound
      rw [World.answer_redisSet hreply hgiven, hupdated, hsame, hkey]
      exact h.restatus hfound hvalue

/-- A careful operation keeps the two records in agreement. -/
theorem serveAdmin_consistent (op : AdminOp) (h : Consistent w.stores) (hcareful : Careful env w op) :
    Consistent (serveAdmin env w op).stores := by
  have hensures : (worldProtocol env).Ensures (fun _ w' => Consistent w'.stores) op.task w := by
    cases op with
    | create body => exact Protocol.ensures_discard.mpr (ensures_createAgent body h hcareful)
    | update agentId body => exact Protocol.ensures_discard.mpr (ensures_updateAgent agentId body h hcareful)
    | delete agentId => exact ensures_deleteAgent agentId h
    | pause agentId => exact ensures_restatus agentId h hcareful (by decide)
    | resume agentId => exact ensures_restatus agentId h hcareful (by decide)
  exact run_of_ensures hensures

/-! ## Runs -/

/-- Over every sequence of careful operations the two records agree in every world. -/
theorem adminRun_agree (env : Env) (w : World) (ops : List AdminOp) (h : Consistent w.stores)
    (hcareful : CarefulRun env w ops) : ∀ w' ∈ adminRun env w ops, Agree w'.stores := by
  induction ops generalizing w with
  | nil =>
    intro w' hw'
    rw [adminRun, List.scanl_nil, List.mem_singleton] at hw'
    exact hw' ▸ h.1
  | cons op rest ih =>
    intro w' hw'
    rw [adminRun, List.scanl_cons, List.mem_cons] at hw'
    rcases hw' with rfl | hw'
    · exact h.1
    · exact ih _ (serveAdmin_consistent op h hcareful.1) hcareful.2 w' hw'

/-- There is nothing to agree on at first. -/
theorem consistent_initial : Consistent World.initial.stores := by
  constructor
  · intro id row hrow
    cases hrow
  · intro id id' row row' hrow
    cases hrow

/-- The request body of an agent without collections. -/
def plainAgent (name : String) : AgentIn := ⟨name, "internal", []⟩

/-- A run in which every operation is careful. -/
def carefulOps : List AdminOp :=
  [.create (plainAgent "a"), .pause 0, .update 0 (plainAgent "a"), .delete 0, .create (plainAgent "b")]

/-- In that run the two records agree in every world. -/
theorem adminRun_agree_pause_delete_create :
    CarefulRun .calm .initial carefulOps ∧ ∀ w' ∈ adminRun .calm .initial carefulOps, Agree w'.stores := by
  have hcareful : CarefulRun .calm .initial carefulOps := by
    refine ⟨?_, ?_, ?_, trivial, ?_, trivial⟩
    · show _ → ¬ Flagged _ _
      decide
    · exact fun _ _ => rfl
    · intro _ row hrow hname
      cases Option.some.inj hrow
      exact absurd rfl hname
    · show _ → ¬ Flagged _ _
      decide
  exact ⟨hcareful, adminRun_agree _ _ _ consistent_initial hcareful⟩

/-- A paused agent that is renamed has no flag under its new name. -/
theorem adminRun_disagree_rename :
    ¬ ∀ w' ∈ adminRun .calm .initial
        [.create (plainAgent "a"), .pause 0, .update 0 (plainAgent "b")], Agree w'.stores := by
  intro h
  have hlast := h _ (List.getLast_mem (List.cons_ne_nil _ _))
  have hflag := (hlast 0 ⟨0, "b", "paused", "internal", []⟩ rfl).mpr rfl
  cases hflag

end FleetWorkflow.KillSwitchRecords
