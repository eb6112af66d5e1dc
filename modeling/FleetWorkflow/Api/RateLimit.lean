import Mathlib.Data.List.Induction
import FleetWorkflow.Api.Middleware
import FleetWorkflow.Flow.Quota
import FleetWorkflow.Python.Separated
import FleetWorkflow.Store.Counters

/-!
# The rate limit

Requests arrive one after another, and the window of each is computed at one instant. The counter of a client and a
minute expires with the end of that minute at the earliest, so that it has counted all requests of the client in the
minute: the first ones up to the limit are admitted.
-/

namespace FleetWorkflow.Api

open Python Async Store Flow

/-- A request at a time. -/
structure Arrival where
  time : ℚ
  request : HttpRequest

/-- The name that a client is counted under. -/
def Arrival.client (arrival : Arrival) : String := arrival.request.client.getD "unknown"

/-- The minute of an arrival. -/
def Arrival.window (arrival : Arrival) : ℤ := ⌊arrival.time / 60⌋

/-- The key of a client and a minute. -/
def windowKey (client : String) (window : ℤ) : String := "ratelimit:" ++ client ++ ":" ++ Int.repr window

/-- The answers of the clock and of Redis at an instant; those to all other calls are given. -/
def answerAt (now : ℚ) (other : (c : HttpCall) → Except Exc c.Reply) (counters : Counters String) :
    (c : HttpCall) → Counters String × Except Exc c.Reply
  | .time => (counters, .ok now)
  | .redisIncr key => ((counters.incr now key).1, .ok (counters.incr now key).2)
  | .redisExpire key seconds => (counters.expire now key seconds, .ok ())
  | .redisClose => (counters, .ok ())
  | c => (counters, other c)

/-- The response to a client beyond its limit. -/
def tooManyRequests : Routed :=
  ⟨⟨429, [], .obj [("error", .obj [("code", .str "rate_limited"), ("message", .str "too many requests")])]⟩, none⟩

/-- The key of an arrival. -/
def Arrival.key (arrival : Arrival) : String × ℤ := (arrival.client, arrival.window)

variable (server : Server)

/-- A request counts, and beyond the limit it is answered at once; otherwise it goes on. -/
theorem run_rateLimit (app : App) (scope : Scope) (now : ℚ) (other : (c : HttpCall) → Except Exc c.Reply)
    (counters : Counters String) : (rateLimit server app scope).run (answerAt now other) counters =
      let hit := counters.hit now (windowKey (scope.request.client.getD "unknown") ⌊now / 60⌋) 60
      if server.rateLimitPerMinute < hit.2 then (hit.1, .ok tooManyRequests)
      else (app scope).run (answerAt now other) hit.1 := by
  have hwindow : ∀ key : String, (Prog.withCleanup (do
      let count ← awaitHttp (.redisIncr key)
      if count = 1 then awaitHttp (.redisExpire key 60)
      return count : Serving ℤ) (awaitHttp .redisClose)).run (answerAt now other) counters =
        ((counters.hit now key 60).1, .ok (counters.hit now key 60).2) := by
    intro key
    rw [Prog.withCleanup, Prog.run_bind, Prog.run_attempt, Prog.run_bind, Prog.run_call]
    dsimp only [answerAt]
    rw [Counters.hit]
    split
    · rfl
    · rfl
  rw [rateLimit, Prog.run_bind, Prog.run_call]
  dsimp only [answerAt, windowKey]
  rw [Prog.run_bind, hwindow]
  dsimp only
  split
  · rfl
  · rfl

/-! ## Sequences of requests -/

/-- An application that only shows that a request came through to it. -/
def passed : App := fun _ => return ⟨⟨200, [], .null⟩, none⟩

/-- The window computation of an arrival. -/
def atWindow (counters : Counters String) (arrival : Arrival) : Counters String × Except Exc Routed :=
  (rateLimit server passed ⟨arrival.request, none⟩).run
    (answerAt arrival.time fun _ => .error ⟨.assertionError, ""⟩) counters

/-- The request of an arrival goes on to the application. -/
def admits (counters : Counters String) (arrival : Arrival) : Bool :=
  match (atWindow server counters arrival).2 with
  | .ok routed => routed.response.status = 200
  | .error _ => false

/-- The counters after some arrivals. -/
def countersAfter (arrivals : List Arrival) : Counters String :=
  arrivals.foldl (fun counters arrival => (atWindow server counters arrival).1) fun _ => none

/-- The arrivals whose requests go on, in a sequence that finds some counters. -/
def admitted (counters : Counters String) : List Arrival → List Arrival
  | [] => []
  | arrival :: rest =>
    if admits server counters arrival then arrival :: admitted (atWindow server counters arrival).1 rest
    else admitted (atWindow server counters arrival).1 rest

/-- A request counts under the key of its arrival, and goes on while the count is within the limit. -/
theorem atWindow_eq (counters : Counters String) (arrival : Arrival) :
    (atWindow server counters arrival).1 =
        (counters.hit arrival.time (windowKey arrival.client arrival.window) 60).1 ∧
      (admits server counters arrival = true ↔
        (counters.hit arrival.time (windowKey arrival.client arrival.window) 60).2 ≤ server.rateLimitPerMinute) := by
  have hrun := run_rateLimit server passed ⟨arrival.request, none⟩ arrival.time
    (fun _ => .error ⟨.assertionError, ""⟩) counters
  rw [← not_lt]
  by_cases hlimit : server.rateLimitPerMinute < (counters.hit arrival.time (windowKey arrival.client arrival.window) 60).2
  · have hrefused := hrun.trans (if_pos hlimit)
    rw [admits, atWindow, hrefused]
    exact ⟨rfl, by simp [tooManyRequests, hlimit]⟩
  · have hpassed := hrun.trans (if_neg hlimit)
    rw [admits, atWindow, hpassed]
    exact ⟨rfl, iff_of_true rfl hlimit⟩

/-- Whatever the application is, it serves the requests that go on, after their window computation. -/
theorem run_rateLimit_eq (app : App) (arrival : Arrival) (traceId : Option String)
    (other : (c : HttpCall) → Except Exc c.Reply) (counters : Counters String) :
    (rateLimit server app ⟨arrival.request, traceId⟩).run (answerAt arrival.time other) counters =
      if admits server counters arrival then
        (app ⟨arrival.request, traceId⟩).run (answerAt arrival.time other) (atWindow server counters arrival).1
      else ((atWindow server counters arrival).1, .ok tooManyRequests) := by
  obtain ⟨hcounters, hadmits⟩ := atWindow_eq server counters arrival
  rw [run_rateLimit, hcounters]
  by_cases hlimit : (counters.hit arrival.time (windowKey arrival.client arrival.window) 60).2 ≤ server.rateLimitPerMinute
  · rw [if_pos (hadmits.mpr hlimit)]
    exact if_neg (not_lt.mpr hlimit)
  · rw [if_neg (fun h => hlimit (hadmits.mp h))]
    exact if_pos (not_le.mp hlimit)

/-! ## Counting -/

/-- The characters of an integer. -/
theorem toList_intRepr (n : ℤ) : (Int.repr n).toList = reprInt n := by
  cases n with
  | ofNat n =>
    rw [Int.repr, Nat.toList_repr, reprInt, if_neg (by simp)]
    rfl
  | negSucc n =>
    rw [Int.repr, String.toList_append, Nat.toList_repr, reprInt, if_pos (by omega)]
    rfl

/-- A key tells its client and its minute. -/
theorem windowKey_inj {client client' : String} {window window' : ℤ}
    (h : windowKey client window = windowKey client' window') : client = client' ∧ window = window' := by
  have hcolon : ∀ n : ℤ, ':' ∉ reprInt n := not_mem_reprInt (by decide) (by decide)
  have hchars := congrArg String.toList h
  simp only [windowKey, String.toList_append, toList_intRepr, List.append_assoc, List.append_cancel_left_eq] at hchars
  obtain ⟨hclient, hwindow⟩ := append_separator_inj (hcolon window) (hcolon window') hchars
  exact ⟨String.toList_inj.mp hclient, reprInt_inj hwindow⟩

/-- The counters have counted what was seen under the keys of arrivals, and each is found to the end of its minute. -/
def CountersFor (counters : Counters String) (seen : String × ℤ → ℕ) : Prop :=
  ∀ client window, counters.Counted (windowKey client window) (60 * (window + 1)) (seen (client, window))

/-- One more arrival. -/
theorem CountersFor.atWindow {counters : Counters String} {seen : String × ℤ → ℕ} (h : CountersFor counters seen)
    (arrival : Arrival) : (admits server counters arrival = true ↔ seen arrival.key < server.rateLimitPerMinute.toNat) ∧
      CountersFor (atWindow server counters arrival).1 (countUp seen arrival.key) := by
  obtain ⟨hcounters, hadmits⟩ := atWindow_eq server counters arrival
  have hend : arrival.time < 60 * (arrival.window + 1) := by
    have hfloor := Int.lt_floor_add_one (arrival.time / 60)
    rw [Arrival.window]
    linarith
  have hstart : 60 * ((arrival.window : ℚ) + 1) ≤ arrival.time + (60 : ℕ) := by
    have hfloor := Int.floor_le (arrival.time / 60)
    rw [Arrival.window]
    push_cast
    linarith
  obtain ⟨hcount, hcounted⟩ := (h arrival.client arrival.window).hit hend hstart
  constructor
  · rw [hadmits, hcount]
    simp only [Arrival.key]
    omega
  · intro client window
    rw [hcounters]
    by_cases hkey : (client, window) = arrival.key
    · obtain ⟨rfl, rfl⟩ := Prod.mk.inj hkey
      rw [hkey, countUp_self]
      exact hcounted
    · rw [countUp_of_ne hkey]
      have hother := h client window
      rw [Counters.Counted, Counters.hit_of_ne]
      · exact hother
      · intro hsame
        obtain ⟨rfl, rfl⟩ := windowKey_inj hsame
        exact hkey rfl

/-- The requests that go on are the first ones of each client and minute. -/
theorem admitted_eq {counters : Counters String} {seen : String × ℤ → ℕ} (h : CountersFor counters seen)
    (arrivals : List Arrival) : admitted server counters arrivals =
      firstUnder server.rateLimitPerMinute.toNat Arrival.key seen arrivals := by
  induction arrivals generalizing counters seen with
  | nil => rfl
  | cons arrival rest ih =>
    obtain ⟨hadmits, hnext⟩ := h.atWindow server arrival
    rw [admitted, firstUnder]
    by_cases hlimit : seen arrival.key < server.rateLimitPerMinute.toNat
    · rw [if_pos hlimit, if_pos (hadmits.mpr hlimit), ih hnext]
    · rw [if_neg hlimit, if_neg (fun hpass => hlimit (hadmits.mp hpass)), ih hnext]

/-- After any arrivals the counters have counted them. -/
theorem countersFor_countersAfter (arrivals : List Arrival) :
    ∃ seen, CountersFor (countersAfter server arrivals) seen := by
  induction arrivals using List.reverseRecOn with
  | nil => exact ⟨fun _ => 0, fun client window => .inl ⟨rfl, rfl⟩⟩
  | append_singleton arrivals arrival ih =>
    obtain ⟨seen, hseen⟩ := ih
    rw [countersAfter, List.foldl_append]
    exact ⟨_, (hseen.atWindow server arrival).2⟩

/-! ## The limit -/

/-- Before any request nothing was counted. -/
theorem countersFor_empty : CountersFor (fun _ => none) fun _ => 0 := fun _ _ => .inl ⟨rfl, rfl⟩

/-- Of one client at most the limit go on in a minute. -/
theorem countP_admitted_window (arrivals : List Arrival) (client : String) (window : ℤ) :
    (admitted server (fun _ => none) arrivals).countP (fun arrival => arrival.client = client ∧ arrival.window = window) ≤
      server.rateLimitPerMinute.toNat := by
  have hkey : (firstUnder server.rateLimitPerMinute.toNat Arrival.key (fun _ => 0) arrivals).countP
      (fun arrival => arrival.key = (client, window)) ≤ server.rateLimitPerMinute.toNat - 0 :=
    countP_firstUnder_le (client, window)
  rw [admitted_eq server countersFor_empty]
  simpa only [Arrival.key, Prod.mk.injEq, Nat.sub_zero] using hkey

/-- Sixty seconds are in two minutes. -/
theorem window_of_span {start time : ℚ} (hstart : start ≤ time) (hend : time ≤ start + 60) :
    ⌊time / 60⌋ = ⌊start / 60⌋ ∨ ⌊time / 60⌋ = ⌊start / 60⌋ + 1 := by
  have hleast : ⌊start / 60⌋ ≤ ⌊time / 60⌋ := Int.floor_le_floor (by linarith)
  have hmost : ⌊time / 60⌋ ≤ ⌊start / 60⌋ + 1 := by
    rw [← Int.floor_add_one]
    exact Int.floor_le_floor (by linarith)
  omega

/-- For every sequence of requests: of one client at most the limit go on in each minute, and at most twice the limit
in any sixty seconds; which requests of a client go on depends on the requests of that client only; and the counter of
a minute is found all through the minute. -/
theorem rateLimit_bounds (server : Server) (arrivals : List Arrival) :
    (∀ client window, (admitted server (fun _ => none) arrivals).countP
        (fun arrival => arrival.client = client ∧ arrival.window = window) ≤ server.rateLimitPerMinute.toNat) ∧
      (∀ client (start : ℚ), (admitted server (fun _ => none) arrivals).countP
        (fun arrival => arrival.client = client ∧ start ≤ arrival.time ∧ arrival.time ≤ start + 60) ≤
          2 * server.rateLimitPerMinute.toNat) ∧
      (∀ client, (admitted server (fun _ => none) arrivals).filter (fun arrival => arrival.client = client) =
        admitted server (fun _ => none) (arrivals.filter fun arrival => arrival.client = client)) ∧
      ∀ client window counter, countersAfter server arrivals (windowKey client window) = some counter →
        ∀ now : ℚ, ⌊now / 60⌋ = window → counter.isLive now = true := by
  refine ⟨countP_admitted_window server arrivals, ?_, ?_, ?_⟩
  · intro client start
    have hfirst := countP_admitted_window server arrivals client ⌊start / 60⌋
    have hsecond := countP_admitted_window server arrivals client (⌊start / 60⌋ + 1)
    have hspan : ∀ arrival : Arrival, decide (arrival.client = client ∧ start ≤ arrival.time ∧
        arrival.time ≤ start + 60) = true → decide (arrival.client = client ∧ arrival.window = ⌊start / 60⌋) = true ∨
          decide (arrival.client = client ∧ arrival.window = ⌊start / 60⌋ + 1) = true := by
      intro arrival h
      simp only [decide_eq_true_eq] at h ⊢
      exact (window_of_span h.2.1 h.2.2).imp (⟨h.1, ·⟩) (⟨h.1, ·⟩)
    have hboth := countP_le_add hspan (admitted server (fun _ => none) arrivals)
    omega
  · intro client
    rw [admitted_eq server countersFor_empty, admitted_eq server countersFor_empty]
    exact @filter_firstUnder Arrival (String × ℤ) _ _ Arrival.key _ arrivals (fun key => key.1 = client) _ fun _ _ => rfl
  · intro client window counter hcounter now hnow
    obtain ⟨seen, hseen⟩ := countersFor_countersAfter server arrivals
    refine (hseen client window).isLive ?_ hcounter
    have hfloor := Int.lt_floor_add_one (now / 60)
    rw [hnow] at hfloor
    linarith

end FleetWorkflow.Api
