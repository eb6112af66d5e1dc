import Mathlib.Order.Monotone.Defs
import FleetWorkflow.Async.Crew
import FleetWorkflow.Core.Gates
import FleetWorkflow.Store.World

/-!
# How stale a pause can be

Any number of lookups on one kill switch, interleaved with each other and with pauses and resumes. A lookup starts when
it reads the cache and the clock, Redis answers it at a later moment, and its answer may arrive later still, after those
of lookups that started after it. Entries of the cache carry the time at which their lookup started, which is before the
moment at which Redis was read.
-/

namespace FleetWorkflow.KillSwitchCache

open Python Async Core Store

/-- A call on a kill switch. -/
inductive SwitchOp where
  | isAgentPaused (agentId : String)
  | pauseAgent (agentId : String)
  | resumeAgent (agentId : String)
deriving DecidableEq

/-- The coroutine of a call; only a lookup has an answer. -/
def SwitchOp.task (killswitch : KillSwitch) : SwitchOp → Coroutine (Option Bool)
  | .isAgentPaused agentId => killswitch.isAgentPaused agentId >>= fun paused => return some paused
  | .pauseAgent agentId => KillSwitch.pauseAgent agentId >>= fun _ => return none
  | .resumeAgent agentId => KillSwitch.resumeAgent agentId >>= fun _ => return none

section Switch

variable {ι : Type} [DecidableEq ι] (env : Env) (killswitch : KillSwitch) (ops : ι → SwitchOp) (w : World)

/-- One task for each call, in a world. -/
def crew : Crew Call Reply Exc World ι (Option Bool) := ⟨w, fun task => (ops task).task killswitch⟩

/-- The world at a moment. -/
def worldAt (moment : List ι) : World := ((crew killswitch ops w).exec (World.answer env) moment).shared

/-- What is left of the tasks at a moment. -/
def runningAt (moment : List ι) : ι → Coroutine (Option Bool) :=
  ((crew killswitch ops w).exec (World.answer env) moment).running

/-- The clock at a moment. -/
def timeAt (moment : List ι) : Time := env.now (worldAt env killswitch ops w moment).tick

/-- The pause flag of an agent at a moment. -/
def flagAt (agentId : String) (moment : List ι) : Bool :=
  isFlagSet ((worldAt env killswitch ops w moment).stores.redis (pauseKey agentId))

/-! ## Time -/

variable {env killswitch ops w}

/-- Time does not go back. -/
theorem timeAt_mono (hclock : Monotone env.now) {earlier later : List ι} (h : earlier <+: later) :
    timeAt env killswitch ops w earlier ≤ timeAt env killswitch ops w later :=
  hclock (Crew.measure_mono World.tick (fun s _ => Nat.le_succ s.tick) h)

/-! ## What is known of the flag -/

variable (env killswitch ops w)

/-- At some moment up to now, and not before a time, the flag of an agent had a value. -/
def Seen (schedule : List ι) (agentId : String) (paused : Bool) (since : Time) : Prop :=
  ∃ moment, moment <+: schedule ∧ since ≤ timeAt env killswitch ops w moment ∧
    flagAt env killswitch ops w agentId moment = paused

/-- What is left of a lookup that Redis has answered: to keep the answer, and to return it. -/
def keepAnswer (agentId : String) (paused : Bool) (time : Time) : Coroutine (Option Bool) :=
  (await (.writePauseCache killswitch.id agentId paused time) >>= fun _ => (return paused : Coroutine Bool)) >>=
    fun paused => return some paused

/-- What is left of a lookup: all of it; the question to Redis, with the time at which it started; or the entry of the
cache, with the flag that Redis read since then. -/
inductive Stage (schedule : List ι) (task : ι) (agentId : String) : Coroutine (Option Bool) → Prop
  | waiting (h : task ∉ schedule) : Stage schedule task agentId ((SwitchOp.isAgentPaused agentId).task killswitch)
  | asking (h : task ∈ schedule) : Stage schedule task agentId
      (killswitch.lookupPaused agentId (timeAt env killswitch ops w (startOf task schedule)) >>=
        fun paused => return some paused)
  | answered (paused : Bool) (h : task ∈ schedule)
      (hseen : Seen env killswitch ops w schedule agentId paused (timeAt env killswitch ops w (startOf task schedule))) :
      Stage schedule task agentId
        (keepAnswer killswitch agentId paused (timeAt env killswitch ops w (startOf task schedule)))
  | returned (answer : Option Bool) : Stage schedule task agentId (.done answer)
  | failed (error : Exc) : Stage schedule task agentId (.raise error)

/-- Every entry of the cache was seen since its time, and every lookup is at one of its stages. -/
structure Fresh (schedule : List ι) : Prop where
  entries : ∀ agentId paused since,
    (worldAt env killswitch ops w schedule).stores.caches killswitch.id agentId = some (paused, since) →
      Seen env killswitch ops w schedule agentId paused since
  lookups : ∀ task agentId, ops task = .isAgentPaused agentId →
    Stage env killswitch ops w schedule task agentId (runningAt env killswitch ops w schedule task)

variable {env killswitch ops w} {schedule : List ι} {task : ι} {agentId : String} {paused : Bool} {since : Time}

/-- What was seen was seen also later on. -/
theorem Seen.later (h : Seen env killswitch ops w schedule agentId paused since) {later : List ι}
    (hlater : schedule <+: later) : Seen env killswitch ops w later agentId paused since := by
  obtain ⟨moment, hmoment, hrest⟩ := h
  exact ⟨moment, hmoment.trans hlater, hrest⟩

/-- A lookup stays at its stage while others step. -/
theorem Stage.later {rest : Coroutine (Option Bool)} (h : Stage env killswitch ops w schedule task agentId rest)
    {other : ι} (hother : task ≠ other) : Stage env killswitch ops w (schedule ++ [other]) task agentId rest := by
  cases h with
  | waiting h => exact .waiting (by simp [h, hother])
  | asking h =>
    rw [← startOf_concat h other]
    exact .asking (List.mem_append_left _ h)
  | answered paused h hseen =>
    rw [← startOf_concat h other]
    refine .answered paused (List.mem_append_left _ h) ?_
    rw [startOf_concat h other]
    exact hseen.later (List.prefix_append _ _)
  | returned answer => exact .returned answer
  | failed error => exact .failed error

/-! ## Steps -/

/-- A step of a waiting task: the world answers its call. -/
theorem stepped {c : Call} {next : Except Exc (Reply c) → Coroutine (Option Bool)}
    (h : runningAt env killswitch ops w schedule task = .await c next) :
    worldAt env killswitch ops w (schedule ++ [task]) = ((worldAt env killswitch ops w schedule).answer env c).1 ∧
      runningAt env killswitch ops w (schedule ++ [task]) = Function.update (runningAt env killswitch ops w schedule) task
        (next ((worldAt env killswitch ops w schedule).answer env c).2) := by
  have hstep := Crew.step_of_await (World.answer env) h
  rw [worldAt, runningAt, Crew.exec_concat, hstep]
  exact ⟨rfl, rfl⟩

/-- A step of a finished task changes nothing. -/
theorem stepped_idle (h : ∀ c next, runningAt env killswitch ops w schedule task ≠ .await c next) :
    worldAt env killswitch ops w (schedule ++ [task]) = worldAt env killswitch ops w schedule ∧
      runningAt env killswitch ops w (schedule ++ [task]) = runningAt env killswitch ops w schedule := by
  rcases Crew.step_cases (World.answer env) ((crew killswitch ops w).exec (World.answer env) schedule) task with
    hsame | ⟨c, next, hawait⟩
  · rw [worldAt, runningAt, Crew.exec_concat, hsame]
    exact ⟨rfl, rfl⟩
  · exact absurd hawait (h c next)

/-- The calls of an operation. -/
def OpCall (killswitch : KillSwitch) : SwitchOp → Call → Prop
  | .isAgentPaused agentId, c => c = .readPauseCache killswitch.id agentId ∨ c = .redisGet (pauseKey agentId) ∨
      ∃ paused time, c = .writePauseCache killswitch.id agentId paused time
  | .pauseAgent agentId, c => c = .redisSet (pauseKey agentId) "1"
  | .resumeAgent agentId, c => c = .redisSet (pauseKey agentId) "0"

/-- The tasks make the calls of their operations. -/
theorem only_runningAt (schedule : List ι) (task : ι) :
    (runningAt env killswitch ops w schedule task).Only (OpCall killswitch (ops task)) := by
  apply Crew.only_exec fun task => OpCall killswitch (ops task)
  intro task
  show ((ops task).task killswitch).Only _
  cases ops task with
  | isAgentPaused agentId =>
    have hlookup : ∀ time, (killswitch.lookupPaused agentId time).Only (OpCall killswitch (.isAgentPaused agentId)) :=
      fun time => (Prog.only_call (.inr (.inl rfl))).bind fun _ =>
        (Prog.only_call (.inr (.inr ⟨_, _, rfl⟩))).bind fun _ => Prog.only_pure _
    apply Prog.Only.bind _ fun _ => Prog.only_pure _
    apply (Prog.only_call (.inl rfl)).bind
    intro cached
    match cached with
    | (time, none) => exact hlookup time
    | (time, some (paused, since)) =>
      show Prog.Only _ (if time - since < pauseCacheTtl then _ else _)
      split
      · exact Prog.only_pure _
      · exact hlookup time
  | pauseAgent agentId =>
    have hcall : OpCall killswitch (.pauseAgent agentId) (.redisSet (pauseKey agentId) "1") := rfl
    exact (Prog.only_call hcall).bind fun _ => Prog.only_pure _
  | resumeAgent agentId =>
    have hcall : OpCall killswitch (.resumeAgent agentId) (.redisSet (pauseKey agentId) "0") := rfl
    exact (Prog.only_call hcall).bind fun _ => Prog.only_pure _

/-- A step changes nothing in the world, or the world answers a call of the operation. -/
theorem worldAt_concat (env : Env) (killswitch : KillSwitch) (ops : ι → SwitchOp) (w : World) (schedule : List ι)
    (task : ι) : worldAt env killswitch ops w (schedule ++ [task]) = worldAt env killswitch ops w schedule ∨
      ∃ c, OpCall killswitch (ops task) c ∧
        worldAt env killswitch ops w (schedule ++ [task]) = ((worldAt env killswitch ops w schedule).answer env c).1 := by
  have honly : (runningAt env killswitch ops w schedule task).Only (OpCall killswitch (ops task)) :=
    only_runningAt schedule task
  cases hrun : runningAt env killswitch ops w schedule task with
  | done value => exact .inl (stepped_idle fun c next hawait => by cases hrun.symm.trans hawait).1
  | raise error => exact .inl (stepped_idle fun c next hawait => by cases hrun.symm.trans hawait).1
  | await c next =>
    rw [hrun] at honly
    exact .inr ⟨c, honly.1, (stepped hrun).1⟩

/-- A write to Redis leaves the cache. -/
theorem caches_of_redisSet (h : ∀ c, OpCall killswitch (ops task) c → ∃ key value, c = .redisSet key value) :
    (worldAt env killswitch ops w (schedule ++ [task])).stores.caches killswitch.id =
      (worldAt env killswitch ops w schedule).stores.caches killswitch.id := by
  rcases worldAt_concat env killswitch ops w schedule task with hsame | ⟨c, hcall, hworld⟩
  · rw [hsame]
  · obtain ⟨key, value, rfl⟩ := h c hcall
    rw [hworld]
    simp only [World.answer]
    cases env.given (worldAt env killswitch ops w schedule).tick (.redisSet key value) <;> rfl

/-- A lookup that starts: it takes a fresh entry of the cache, or goes on to ask Redis. -/
theorem step_waiting
    (hrun : runningAt env killswitch ops w schedule task = (SwitchOp.isAgentPaused agentId).task killswitch) :
    (worldAt env killswitch ops w (schedule ++ [task])).stores = (worldAt env killswitch ops w schedule).stores ∧
      (runningAt env killswitch ops w (schedule ++ [task]) task =
          (killswitch.lookupPaused agentId (timeAt env killswitch ops w schedule) >>= fun paused => return some paused) ∨
        ∃ paused since, (worldAt env killswitch ops w schedule).stores.caches killswitch.id agentId = some (paused, since) ∧
          timeAt env killswitch ops w schedule - since < pauseCacheTtl ∧
            runningAt env killswitch ops w (schedule ++ [task]) task = .done (some paused)) := by
  obtain ⟨hworld, hrunning⟩ := stepped (c := .readPauseCache killswitch.id agentId) hrun
  have hreply : ((worldAt env killswitch ops w schedule).answer env (.readPauseCache killswitch.id agentId)).2 =
      .ok (timeAt env killswitch ops w schedule,
        (worldAt env killswitch ops w schedule).stores.caches killswitch.id agentId) := rfl
  refine ⟨by rw [hworld]; rfl, ?_⟩
  rw [hrunning, Function.update_self, hreply]
  cases hcached : (worldAt env killswitch ops w schedule).stores.caches killswitch.id agentId with
  | none => exact .inl rfl
  | some entry =>
    obtain ⟨paused, since⟩ := entry
    by_cases hfresh : timeAt env killswitch ops w schedule - since < pauseCacheTtl
    · refine .inr ⟨paused, since, rfl, hfresh, ?_⟩
      show (if timeAt env killswitch ops w schedule - since < pauseCacheTtl then (pure paused : Coroutine Bool)
        else killswitch.lookupPaused agentId (timeAt env killswitch ops w schedule)) >>= _ = _
      rw [if_pos hfresh]
      rfl
    · refine .inl ?_
      show (if timeAt env killswitch ops w schedule - since < pauseCacheTtl then (pure paused : Coroutine Bool)
        else killswitch.lookupPaused agentId (timeAt env killswitch ops w schedule)) >>= _ = _
      rw [if_neg hfresh]

/-- Redis answers a lookup: the flag of the moment, unless the read fails. -/
theorem step_asking {time : Time} (hrun : runningAt env killswitch ops w schedule task =
      (killswitch.lookupPaused agentId time >>= fun paused => return some paused)) :
    (worldAt env killswitch ops w (schedule ++ [task])).stores = (worldAt env killswitch ops w schedule).stores ∧
      (runningAt env killswitch ops w (schedule ++ [task]) task =
          keepAnswer killswitch agentId (flagAt env killswitch ops w agentId schedule) time ∨
        ∃ error, runningAt env killswitch ops w (schedule ++ [task]) task = .raise error) := by
  obtain ⟨hworld, hrunning⟩ := stepped (c := .redisGet (pauseKey agentId)) hrun
  rw [hrunning, Function.update_self, hworld]
  simp only [World.answer]
  cases env.given (worldAt env killswitch ops w schedule).tick (.redisGet (pauseKey agentId)) with
  | error error => exact ⟨rfl, .inr ⟨error, rfl⟩⟩
  | ok value => exact ⟨rfl, .inl rfl⟩

/-- The answer arrives: it is kept in the cache with the time at which its lookup started, and returned. -/
theorem step_answered {time : Time}
    (hrun : runningAt env killswitch ops w schedule task = keepAnswer killswitch agentId paused time) :
    (worldAt env killswitch ops w (schedule ++ [task])).stores.caches killswitch.id =
        Function.update ((worldAt env killswitch ops w schedule).stores.caches killswitch.id) agentId
          (some (paused, time)) ∧
      runningAt env killswitch ops w (schedule ++ [task]) task = .done (some paused) := by
  obtain ⟨hworld, hrunning⟩ := stepped (c := .writePauseCache killswitch.id agentId paused time) hrun
  rw [hrunning, Function.update_self, hworld]
  exact ⟨Function.update_self _ _ _, rfl⟩

/-- What every step keeps. -/
theorem Fresh.concat (h : Fresh env killswitch ops w schedule) (hclock : Monotone env.now) (task : ι) :
    Fresh env killswitch ops w (schedule ++ [task]) := by
  have hgrow : schedule <+: schedule ++ [task] := List.prefix_append _ _
  -- Tasks that do not step stay at their stage.
  have hothers : ∀ other agentId, ops other = .isAgentPaused agentId → other ≠ task →
      Stage env killswitch ops w (schedule ++ [task]) other agentId
        (runningAt env killswitch ops w (schedule ++ [task]) other) := by
    intro other agentId hop hother
    have hsame : runningAt env killswitch ops w (schedule ++ [task]) other =
        runningAt env killswitch ops w schedule other := by
      rw [runningAt, Crew.exec_concat]
      exact Crew.running_step_of_ne hother
    rw [hsame]
    exact (h.lookups other agentId hop).later hother
  -- The entries stay when the cache does, and the stage of the task is all that is left to show.
  have hkeeps : (worldAt env killswitch ops w (schedule ++ [task])).stores.caches killswitch.id =
        (worldAt env killswitch ops w schedule).stores.caches killswitch.id →
      (∀ agentId, ops task = .isAgentPaused agentId → Stage env killswitch ops w (schedule ++ [task]) task agentId
        (runningAt env killswitch ops w (schedule ++ [task]) task)) → Fresh env killswitch ops w (schedule ++ [task]) := by
    intro hcaches hstage
    refine ⟨fun agentId paused since hentry => ?_, fun other agentId hop => ?_⟩
    · rw [hcaches] at hentry
      exact (h.entries agentId paused since hentry).later hgrow
    · by_cases hother : other = task
      · rw [hother] at hop ⊢
        exact hstage agentId hop
      · exact hothers other agentId hop hother
  cases hop : ops task with
  | isAgentPaused agentId =>
    have hstage := h.lookups task agentId hop
    generalize hrun : runningAt env killswitch ops w schedule task = rest at hstage
    cases hstage with
    | waiting hwaits =>
      obtain ⟨hstores, hnext⟩ := step_waiting hrun
      apply hkeeps (by rw [hstores])
      intro other hother
      rw [hop] at hother
      cases hother
      rcases hnext with hasks | ⟨paused, since, -, -, hreturns⟩
      · have hasking : Stage env killswitch ops w (schedule ++ [task]) task agentId _ := .asking (by simp)
        rw [startOf_first hwaits] at hasking
        rw [hasks]
        exact hasking
      · rw [hreturns]
        exact .returned _
    | asking hstarted =>
      obtain ⟨hstores, hnext⟩ := step_asking hrun
      apply hkeeps (by rw [hstores])
      intro other hother
      rw [hop] at hother
      cases hother
      rcases hnext with hanswers | ⟨error, hfails⟩
      · have hseen : Seen env killswitch ops w (schedule ++ [task]) agentId
            (flagAt env killswitch ops w agentId schedule) (timeAt env killswitch ops w (startOf task schedule)) :=
          ⟨schedule, hgrow, timeAt_mono hclock (startOf_moment task schedule), rfl⟩
        rw [← startOf_concat hstarted task] at hseen hanswers
        rw [hanswers]
        exact .answered _ (List.mem_append_left _ hstarted) hseen
      · rw [hfails]
        exact .failed _
    | answered paused hstarted hseen =>
      obtain ⟨hcaches, hreturns⟩ := step_answered hrun
      refine ⟨fun other value since hentry => ?_, fun other otherId hother => ?_⟩
      · rw [hcaches] at hentry
        by_cases hsame : other = agentId
        · rw [hsame, Function.update_self] at hentry
          cases hentry
          rw [hsame]
          exact hseen.later hgrow
        · rw [Function.update_of_ne hsame] at hentry
          exact (h.entries other value since hentry).later hgrow
      · by_cases hsame : other = task
        · rw [hsame, hreturns]
          exact .returned _
        · exact hothers other otherId hother hsame
    | returned answer =>
      obtain ⟨hworld, hrunning⟩ := stepped_idle fun c next hawait => by cases hrun.symm.trans hawait
      apply hkeeps (by rw [hworld])
      intro other _
      rw [hrunning, hrun]
      exact .returned answer
    | failed error =>
      obtain ⟨hworld, hrunning⟩ := stepped_idle fun c next hawait => by cases hrun.symm.trans hawait
      apply hkeeps (by rw [hworld])
      intro other _
      rw [hrunning, hrun]
      exact .failed error
  | pauseAgent agentId =>
    have hcalls : ∀ c, OpCall killswitch (ops task) c → ∃ key value, c = .redisSet key value := by
      intro c hc
      rw [hop] at hc
      exact ⟨_, _, hc⟩
    apply hkeeps (caches_of_redisSet hcalls)
    intro other hother
    rw [hop] at hother
    cases hother
  | resumeAgent agentId =>
    have hcalls : ∀ c, OpCall killswitch (ops task) c → ∃ key value, c = .redisSet key value := by
      intro c hc
      rw [hop] at hc
      exact ⟨_, _, hc⟩
    apply hkeeps (caches_of_redisSet hcalls)
    intro other hother
    rw [hop] at hother
    cases hother

/-- At every moment the entries and the lookups are fresh. -/
theorem fresh_schedule (hclock : Monotone env.now) (hnew : ∀ agentId, w.stores.caches killswitch.id agentId = none)
    (schedule : List ι) : Fresh env killswitch ops w schedule := by
  induction schedule using List.reverseRecOn with
  | nil =>
    refine ⟨fun agentId paused since hentry => ?_, fun task agentId hop => ?_⟩
    · rw [show worldAt env killswitch ops w [] = w from rfl, hnew agentId] at hentry
      cases hentry
    · have hwaits : runningAt env killswitch ops w [] task = (SwitchOp.isAgentPaused agentId).task killswitch := by
        rw [← hop]
        rfl
      rw [hwaits]
      exact .waiting (by simp)
  | append_singleton schedule task ih => exact ih.concat hclock task

/-! ## Pauses that stand -/

/-- A step that is no resume of an agent leaves its flag set. -/
theorem flagAt_concat (h : flagAt env killswitch ops w agentId schedule = true)
    (hstands : ops task ≠ .resumeAgent agentId) : flagAt env killswitch ops w agentId (schedule ++ [task]) = true := by
  rw [flagAt] at h ⊢
  rcases worldAt_concat env killswitch ops w schedule task with hsame | ⟨c, hcall, hworld⟩
  · rw [hsame]
    exact h
  · rw [hworld]
    simp only [World.answer]
    cases hop : ops task with
    | isAgentPaused other =>
      rw [hop] at hcall
      have hquiet : ¬ Stores.WritesKey (pauseKey agentId) c := by
        rcases hcall with rfl | rfl | ⟨paused, time, rfl⟩ <;> exact id
      rw [Stores.respond_redis hquiet]
      exact h
    | pauseAgent other =>
      rw [hop] at hcall
      obtain rfl : c = .redisSet (pauseKey other) "1" := hcall
      cases env.given (worldAt env killswitch ops w schedule).tick (.redisSet (pauseKey other) "1") with
      | error error => exact h
      | ok value =>
        simp only [Stores.respond, Function.update_apply]
        split
        · rfl
        · exact h
    | resumeAgent other =>
      rw [hop] at hcall hstands
      obtain rfl : c = .redisSet (pauseKey other) "0" := hcall
      have hother : ¬ pauseKey agentId = pauseKey other := by
        intro hsame
        rw [pauseKey_inj.mp hsame] at hstands
        exact hstands rfl
      cases env.given (worldAt env killswitch ops w schedule).tick (.redisSet (pauseKey other) "0") with
      | error error => exact h
      | ok value =>
        simp only [Stores.respond, Function.update_apply, if_neg hother]
        exact h

/-- A pause that was made: its step came at a moment, and its write did not fail. -/
def PausedAt (env : Env) (killswitch : KillSwitch) (ops : ι → SwitchOp) (w : World) (agentId : String)
    (moment : List ι) (task : ι) : Prop :=
  ops task = .pauseAgent agentId ∧ task ∉ moment ∧
    env.given (worldAt env killswitch ops w moment).tick (.redisSet (pauseKey agentId) "1") = .ok ()

/-- A pause sets the flag. -/
theorem flagAt_paused {moment : List ι} (h : PausedAt env killswitch ops w agentId moment task) :
    flagAt env killswitch ops w agentId (moment ++ [task]) = true := by
  obtain ⟨hop, hnew, hgiven⟩ := h
  have hrun : runningAt env killswitch ops w moment task = (SwitchOp.pauseAgent agentId).task killswitch := by
    rw [runningAt, Crew.running_exec_of_not_mem hnew, ← hop]
    rfl
  obtain ⟨hworld, -⟩ := stepped (c := .redisSet (pauseKey agentId) "1") hrun
  rw [flagAt, hworld]
  simp only [World.answer, hgiven, Stores.respond, Function.update_self]
  rfl

/-- A pause that nothing revokes stands at every later moment. -/
theorem flagAt_of_pausedAt {moment rest : List ι} (h : PausedAt env killswitch ops w agentId moment task)
    (hstands : ∀ other ∈ rest, ops other ≠ .resumeAgent agentId) :
    flagAt env killswitch ops w agentId (moment ++ [task] ++ rest) = true := by
  induction rest using List.reverseRecOn with
  | nil =>
    rw [List.append_nil]
    exact flagAt_paused h
  | append_singleton rest other ih =>
    rw [← List.append_assoc]
    apply flagAt_concat
    · exact ih fun another hanother => hstands another (List.mem_append_left _ hanother)
    · exact hstands other (by simp)

/-! ## How stale an answer can be -/

omit [DecidableEq ι] in
/-- What is younger than an age was not more than it ago at any later time. -/
theorem lt_add_of_age {start since moment age : ℕ} (hage : start - since < age) (h : since ≤ moment) :
    start < moment + age := by
  omega

/-- What a lookup returns was seen at most five seconds before it started. -/
theorem answer_seen (hclock : Monotone env.now) (hnew : ∀ agentId, w.stores.caches killswitch.id agentId = none)
    (hop : ops task = .isAgentPaused agentId) (hruns : ∀ answer, runningAt env killswitch ops w schedule task ≠ .done answer)
    (hreturns : runningAt env killswitch ops w (schedule ++ [task]) task = .done (some paused)) :
    ∃ moment, moment <+: schedule ∧
      timeAt env killswitch ops w (startOf task (schedule ++ [task])) <
        timeAt env killswitch ops w moment + pauseCacheTtl ∧
      flagAt env killswitch ops w agentId moment = paused := by
  have hfresh : Fresh env killswitch ops w schedule := fresh_schedule hclock hnew schedule
  have hstage := hfresh.lookups task agentId hop
  generalize hrun : runningAt env killswitch ops w schedule task = rest at hstage hruns
  cases hstage with
  | waiting hwaits =>
    obtain ⟨-, hnext⟩ := step_waiting hrun
    rcases hnext with hasks | ⟨held, since, hentry, hage, hheld⟩
    · cases hreturns.symm.trans hasks
    · cases hreturns.symm.trans hheld
      obtain ⟨moment, hmoment, hsince, hflag⟩ := hfresh.entries agentId paused since hentry
      refine ⟨moment, hmoment, ?_, hflag⟩
      rw [startOf_first hwaits]
      exact lt_add_of_age hage hsince
  | asking hstarted =>
    obtain ⟨-, hnext⟩ := step_asking hrun
    rcases hnext with hanswers | ⟨error, hfails⟩
    · cases hreturns.symm.trans hanswers
    · cases hreturns.symm.trans hfails
  | answered held hstarted hseen =>
    obtain ⟨-, hheld⟩ := step_answered hrun
    cases hreturns.symm.trans hheld
    obtain ⟨moment, hmoment, hsince, hflag⟩ := hseen
    refine ⟨moment, hmoment, ?_, hflag⟩
    rw [startOf_concat hstarted]
    exact Nat.lt_of_le_of_lt hsince (Nat.lt_add_of_pos_right (by decide))
  | returned answer => exact absurd rfl (hruns answer)
  | failed error =>
    obtain ⟨-, hrunning⟩ := stepped_idle fun c next hawait => by cases hrun.symm.trans hawait
    rw [hrunning, hrun] at hreturns
    cases hreturns

variable (env killswitch ops w schedule task agentId)

/-- Lookups of a new kill switch, interleaved in any way with each other and with pauses and resumes, under a clock that
does not go back: a lookup that returns by the last step of a schedule returns what the flag was at some moment that is
less than five seconds before its start, or later, and not after its return; and when its agent was paused five seconds or
more before its start, and nothing has revoked the pause since, it returns that the agent is paused. -/
theorem lookup_staleness (hclock : Monotone env.now) (hnew : ∀ agentId, w.stores.caches killswitch.id agentId = none)
    (hop : ops task = .isAgentPaused agentId) (hruns : ∀ answer, runningAt env killswitch ops w schedule task ≠ .done answer)
    (hreturns : runningAt env killswitch ops w (schedule ++ [task]) task = .done (some paused)) :
    (∃ moment, moment <+: schedule ∧
      timeAt env killswitch ops w (startOf task (schedule ++ [task])) <
        timeAt env killswitch ops w moment + pauseCacheTtl ∧
      timeAt env killswitch ops w moment ≤ timeAt env killswitch ops w schedule ∧
      flagAt env killswitch ops w agentId moment = paused) ∧
    ∀ pausing pauser later, PausedAt env killswitch ops w agentId pausing pauser →
      schedule = pausing ++ [pauser] ++ later → (∀ other ∈ later, ops other ≠ .resumeAgent agentId) →
      timeAt env killswitch ops w pausing + pauseCacheTtl ≤
        timeAt env killswitch ops w (startOf task (schedule ++ [task])) → paused = true := by
  obtain ⟨moment, hmoment, hage, hflag⟩ := answer_seen hclock hnew hop hruns hreturns
  refine ⟨⟨moment, hmoment, hage, timeAt_mono hclock hmoment, hflag⟩, ?_⟩
  intro pausing pauser later hpaused hschedule hstands hold
  -- The moment that was seen is later than the pause, which stands there.
  have hlater : ¬ moment <+: pausing := by
    intro hbefore
    have htime : timeAt env killswitch ops w moment ≤ timeAt env killswitch ops w pausing := timeAt_mono hclock hbefore
    exact absurd (Nat.lt_of_lt_of_le hage (Nat.add_le_add_right htime _)) (Nat.not_lt.mpr hold)
  have hsplit : ∃ rest, moment = pausing ++ [pauser] ++ rest ∧ rest <+: later := by
    rw [hschedule] at hmoment
    rcases List.prefix_or_prefix_of_prefix hmoment (List.prefix_append _ later) with hbefore | ⟨rest, hrest⟩
    · rcases List.prefix_concat_iff.mp hbefore with hsame | hbefore
      · exact ⟨[], by simpa using hsame, List.nil_prefix⟩
      · exact absurd hbefore hlater
    · rw [← hrest] at hmoment
      exact ⟨rest, hrest.symm, (List.prefix_append_right_inj _).mp hmoment⟩
  obtain ⟨rest, rfl, hrest⟩ := hsplit
  rw [← hflag]
  exact flagAt_of_pausedAt hpaused fun other hother => hstands other (hrest.subset hother)

end Switch

/-- A clock on which six seconds pass with every call; no call fails. -/
def slowEnv : Env where
  now tick := 6000000 * tick
  given _ c :=
    match c with
    | .redisSet _ _ => .ok ()
    | .redisGet _ => .ok none
    | _ => .error ⟨.external, ""⟩

/-- Two calls: a pause and a lookup of one agent. -/
def pauseAndLookup : ℕ → SwitchOp
  | 0 => .pauseAgent "support_copilot"
  | _ => .isAgentPaused "support_copilot"

/-- A pause, and six seconds later a lookup. -/
theorem lookup_staleness_slow : (∃ moment, moment <+: [0, 1, 1] ∧
      timeAt slowEnv ⟨0⟩ pauseAndLookup .initial (startOf 1 [0, 1, 1, 1]) <
        timeAt slowEnv ⟨0⟩ pauseAndLookup .initial moment + pauseCacheTtl ∧
      timeAt slowEnv ⟨0⟩ pauseAndLookup .initial moment ≤ timeAt slowEnv ⟨0⟩ pauseAndLookup .initial [0, 1, 1] ∧
      flagAt slowEnv ⟨0⟩ pauseAndLookup .initial "support_copilot" moment = true) ∧
    ∀ paused, runningAt slowEnv ⟨0⟩ pauseAndLookup .initial [0, 1, 1, 1] 1 = .done (some paused) → paused = true := by
  have hclock : Monotone slowEnv.now := fun earlier later hle => Nat.mul_le_mul_left 6000000 hle
  have hruns : ∀ answer, runningAt slowEnv ⟨0⟩ pauseAndLookup .initial [0, 1, 1] 1 ≠ .done answer := by
    intro answer hdone
    have hkeeps : keepAnswer ⟨0⟩ "support_copilot" true 6000000 = .done answer := hdone
    cases hkeeps
  constructor
  · exact (lookup_staleness slowEnv ⟨0⟩ pauseAndLookup .initial [0, 1, 1] 1 "support_copilot" hclock (fun _ => rfl) rfl
      hruns rfl).1
  · intro paused hreturns
    have hstale := lookup_staleness slowEnv ⟨0⟩ pauseAndLookup .initial [0, 1, 1] 1 "support_copilot" hclock
      (fun _ => rfl) rfl hruns hreturns
    exact hstale.2 [] 0 [1, 1] ⟨rfl, by simp, rfl⟩ rfl (by decide) (by decide)

end FleetWorkflow.KillSwitchCache
