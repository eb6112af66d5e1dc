import FleetWorkflow.Api.Middleware
import FleetWorkflow.Async.Runs

/-!
# The audit of requests

Runs of the whole application for one request. The row of a request is written after the layers
inside have answered, and its trace id goes out with the response; an exception that nobody handles
passes both by.
-/

namespace FleetWorkflow.Api

open Python Async

/-- A call with its reply. -/
abbrev HttpEvent := Event HttpCall HttpCall.Reply Exc

variable (server : Server)

/-- The subject that a reply of the key server verifies. -/
def subFrom (token : String) (reply : Except Exc Json) : Except Exc (Option Json) :=
  subOrNone (((reply.bind (server.jwtDecode token)).mapError invalidToken).bind userOf)

/-- The token of a request. -/
def HttpRequest.token (request : HttpRequest) : Option String := bearerToken (getHeader request.headers "authorization")

/-- What happens with a call leaves no exception that nobody handles: a handler may raise those that have a response,
and the token of the request may be refused. -/
def Settled (request : HttpRequest) : HttpEvent → Prop
  | ⟨.handle _, reply⟩ => (∃ response, reply = .ok response) ∨ ∃ error, reply = .error error ∧ (errorResponse error).isSome
  | ⟨.fetchJwks, reply⟩ => ∀ token ∈ request.token, ∃ sub, subFrom server token reply = .ok sub
  | ⟨_, reply⟩ => ∃ value, reply = .ok value

/-- The rows that were written. -/
def auditRows (events : List HttpEvent) : List AuditRow := events.filterMap fun event =>
  match event with
  | ⟨.writeAudit row, .ok _⟩ => some row
  | _ => none

/-- The subject that was verified in a run. -/
def verifiedSub (request : HttpRequest) (events : List HttpEvent) : Option Json := events.findSome? fun event =>
  match event with
  | ⟨.fetchJwks, reply⟩ => request.token.bind fun token => (subFrom server token reply).toOption.join
  | _ => none

/-- One row is written, its actor is the verified subject or nobody, and its trace id is that of the response. -/
def Audited (request : HttpRequest) (events : List HttpEvent) (response : HttpResponse) : Prop :=
  ∃ row traceId, auditRows events = [row] ∧
    row.actor = (verifiedSub server request events).getD (.str "anonymous") ∧
    row.traceId = some traceId ∧ getHeader response.headers "x-trace-id" = some traceId

variable {server} {request : HttpRequest} {scope : Scope} {events : List HttpEvent}

/-! ## Tokens -/

/-- A token is verified with one call. -/
theorem runs_verifyBearerToken {token : String} {result : Except Exc CurrentUser} :
    (verifyBearerToken server token).Runs events result ↔ ∃ reply : Except Exc Json, events = [⟨.fetchJwks, reply⟩] ∧
      result = ((reply.bind (server.jwtDecode token)).mapError invalidToken).bind userOf := by
  rw [verifyBearerToken, Prog.runs_bind_ofExcept]
  constructor
  · rintro ⟨outcome, hrun, rfl⟩
    obtain ⟨claims, hclaims, rfl⟩ := Prog.runs_mapError.mp hrun
    obtain ⟨reply, hreply, rfl⟩ := Prog.runs_bind_ofExcept.mp hclaims
    exact ⟨reply, Prog.runs_call.mp hreply, rfl⟩
  · rintro ⟨reply, rfl, rfl⟩
    refine ⟨_, Prog.runs_mapError.mpr ⟨_, ?_, rfl⟩, rfl⟩
    exact Prog.runs_bind_ofExcept.mpr ⟨reply, Prog.runs_call.mpr rfl, rfl⟩

/-- Without a token nothing is asked. -/
theorem tryCurrentUserSub_of_none {authHeader : Option String} (h : bearerToken authHeader = none) :
    tryCurrentUserSub server authHeader = pure none := by
  rw [tryCurrentUserSub, h]

/-- With a token the key server is asked once. -/
theorem runs_tryCurrentUserSub {authHeader : Option String} {token : String} (h : bearerToken authHeader = some token)
    {result : Except Exc (Option Json)} :
    (tryCurrentUserSub server authHeader).Runs events result ↔
      ∃ reply, events = [⟨.fetchJwks, reply⟩] ∧ result = subFrom server token reply := by
  rw [tryCurrentUserSub, h]
  dsimp only
  rw [Prog.runs_bind_ofExcept]
  constructor
  · rintro ⟨outcome, hrun, rfl⟩
    obtain ⟨user, huser, rfl⟩ := Prog.runs_attempt.mp hrun
    obtain ⟨reply, rfl, rfl⟩ := runs_verifyBearerToken.mp huser
    exact ⟨reply, rfl, rfl⟩
  · rintro ⟨reply, rfl, rfl⟩
    exact ⟨_, Prog.runs_attempt.mpr ⟨_, runs_verifyBearerToken.mpr ⟨reply, rfl, rfl⟩, rfl⟩, rfl⟩

/-- The subject of the request is found exactly when that is settled. -/
theorem settles_tryCurrentUserSub (request : HttpRequest) :
    (tryCurrentUserSub server (getHeader request.headers "authorization")).Settles (Settled server request) := by
  cases htoken : bearerToken (getHeader request.headers "authorization") with
  | none =>
    rw [tryCurrentUserSub_of_none htoken]
    exact Prog.settles_pure none
  | some token =>
    intro events result hrun
    obtain ⟨reply, rfl, rfl⟩ := (runs_tryCurrentUserSub htoken).mp hrun
    simp [Settled, HttpRequest.token, htoken]

/-! ## When an exception is handled -/

/-- A call that nobody handles the exceptions of. -/
theorem settles_await {c : HttpCall} (hc : ∀ reply, Settled server request ⟨c, reply⟩ ↔ ∃ value, reply = .ok value) :
    (awaitHttp c).Settles (Settled server request) := Prog.settles_call hc

/-- The router raises exactly the exceptions that nobody handles. -/
theorem settles_router : (router scope).Settles (Settled server request) := by
  apply (settles_await fun reply => Iff.rfl).bind
  intro route
  apply Prog.Settles.bind
  · intro events result hrun
    obtain ⟨outcome, houtcome, rfl⟩ := Prog.runs_handle.mp hrun
    obtain rfl := Prog.runs_call.mp houtcome
    cases outcome with
    | ok response => simp [Settled]
    | error error => cases herror : errorResponse error <;> simp [Settled, herror]
  · intro response
    exact Prog.settles_pure _

/-- The rate limit. -/
theorem settles_rateLimit {app : App} (happ : (app scope).Settles (Settled server request)) :
    (rateLimit server app scope).Settles (Settled server request) := by
  apply (settles_await fun reply => Iff.rfl).bind
  intro now
  apply Prog.Settles.bind
  · apply Prog.Settles.withCleanup
    · apply (settles_await fun reply => Iff.rfl).bind
      intro count
      split
      · exact (settles_await fun reply => Iff.rfl).bind fun _ => Prog.settles_pure _
      · exact Prog.settles_pure _
    · exact settles_await fun reply => Iff.rfl
  · intro count
    split
    · exact Prog.settles_pure _
    · exact happ

/-- The metrics. -/
theorem settles_requestMetrics {app : App} (happ : (app scope).Settles (Settled server request)) :
    (requestMetrics app scope).Settles (Settled server request) := by
  apply (settles_await fun reply => Iff.rfl).bind
  intro start
  apply happ.bind
  intro served
  apply (settles_await fun reply => Iff.rfl).bind
  intro now
  apply (settles_await fun reply => Iff.rfl).bind
  intro _
  exact (settles_await fun reply => Iff.rfl).bind fun _ => Prog.settles_pure _

/-- The audit. -/
theorem settles_audit {app : App} (happ : (app scope).Settles (Settled server scope.request)) :
    (audit server app scope).Settles (Settled server scope.request) := by
  apply happ.bind
  intro served
  apply (settles_tryCurrentUserSub scope.request).bind
  intro sub
  apply Prog.Settles.bind
  · exact (settles_await fun reply => Iff.rfl).withCleanup (settles_await fun reply => Iff.rfl)
  · intro _
    exact Prog.settles_pure _

/-- The trace ids. -/
theorem settles_traceIds {app : App} (happ : ∀ traceId, (app ⟨request, some traceId⟩).Settles (Settled server request)) :
    (traceIds app ⟨request, none⟩).Settles (Settled server request) := by
  rw [traceIds]
  cases askedTraceId request with
  | some traceId => exact (happ traceId).bind fun served => Prog.settles_pure _
  | none =>
    apply (settles_await fun reply => Iff.rfl).bind
    intro traceId
    exact (happ traceId).bind fun served => Prog.settles_pure _

/-- The layers inside those for browsers. -/
theorem settles_layers (request : HttpRequest) :
    (layers server ⟨request, none⟩).Settles (Settled server request) := by
  apply settles_traceIds
  intro traceId
  exact settles_audit (settles_requestMetrics (settles_rateLimit settles_router))

/-! ## What is recorded -/

/-- A call that neither asks the key server nor writes a row. -/
def Elsewhere : HttpCall → Prop
  | .fetchJwks => False
  | .writeAudit _ => False
  | _ => True

/-- The rows of a sequence. -/
theorem auditRows_append (before after : List HttpEvent) :
    auditRows (before ++ after) = auditRows before ++ auditRows after := List.filterMap_append

/-- The subject of a sequence. -/
theorem verifiedSub_append (before after : List HttpEvent) :
    verifiedSub server request (before ++ after) =
      (verifiedSub server request before).or (verifiedSub server request after) := by
  rw [verifiedSub, List.findSome?_append]
  rfl

/-- Calls elsewhere write no row. -/
theorem auditRows_of_elsewhere (h : ∀ event ∈ events, Elsewhere event.call) : auditRows events = [] := by
  rw [auditRows, List.filterMap_eq_nil_iff]
  rintro ⟨c, reply⟩ hevent
  have hc := h _ hevent
  cases c <;> first | rfl | exact hc.elim

/-- Calls elsewhere verify nobody. -/
theorem verifiedSub_of_elsewhere (h : ∀ event ∈ events, Elsewhere event.call) : verifiedSub server request events = none := by
  rw [verifiedSub, List.findSome?_eq_none_iff]
  rintro ⟨c, reply⟩ hevent
  have hc := h _ hevent
  cases c <;> first | rfl | exact hc.elim

/-- The router calls elsewhere. -/
theorem only_router : (router scope).Only Elsewhere := by
  apply (Prog.only_call trivial).bind
  intro route
  exact (Prog.only_call trivial).handle.bind fun response => Prog.only_pure _

/-- The rate limit calls elsewhere. -/
theorem only_rateLimit {app : App} (happ : (app scope).Only Elsewhere) : (rateLimit server app scope).Only Elsewhere := by
  apply (Prog.only_call trivial).bind
  intro now
  apply Prog.Only.bind
  · apply Prog.Only.withCleanup
    · apply (Prog.only_call trivial).bind
      intro count
      split
      · exact (Prog.only_call trivial).bind fun _ => Prog.only_pure _
      · exact Prog.only_pure _
    · exact Prog.only_call trivial
  · intro count
    split
    · exact Prog.only_pure _
    · exact happ

/-- The metrics call elsewhere. -/
theorem only_requestMetrics {app : App} (happ : (app scope).Only Elsewhere) :
    (requestMetrics app scope).Only Elsewhere := by
  apply (Prog.only_call trivial).bind
  intro start
  apply happ.bind
  intro served
  apply (Prog.only_call trivial).bind
  intro now
  apply (Prog.only_call trivial).bind
  intro _
  exact (Prog.only_call trivial).bind fun _ => Prog.only_pure _

/-- What the search for the subject records. -/
theorem verifiedSub_tryCurrentUserSub {sub : Option Json}
    (h : (tryCurrentUserSub server (getHeader request.headers "authorization")).Runs events (.ok sub)) :
    auditRows events = [] ∧ verifiedSub server request events = sub := by
  cases htoken : bearerToken (getHeader request.headers "authorization") with
  | none =>
    rw [tryCurrentUserSub_of_none htoken] at h
    obtain ⟨rfl, hsub⟩ := Prog.runs_done.mp h
    cases hsub
    exact ⟨rfl, rfl⟩
  | some token =>
    obtain ⟨reply, rfl, hsub⟩ := (runs_tryCurrentUserSub htoken).mp h
    refine ⟨rfl, ?_⟩
    simp only [verifiedSub, HttpRequest.token, htoken, List.findSome?_cons, List.findSome?_nil, Option.bind_some, ← hsub]
    cases sub <;> rfl

/-- What an audit that returns records. -/
theorem audit_returns {app : App} {served : Routed} (happ : (app scope).Only Elsewhere)
    (h : (audit server app scope).Runs events (.ok served)) : ∃ row, auditRows events = [row] ∧
      row.actor = (verifiedSub server scope.request events).getD (.str "anonymous") ∧ row.traceId = scope.traceId := by
  rcases Prog.runs_bind.mp h with ⟨error, -, herror⟩ | ⟨inside, outside, answered, rfl, hinside, houtside⟩
  · cases herror
  have helsewhere := happ.runs hinside
  rcases Prog.runs_bind.mp houtside with ⟨error, -, herror⟩ | ⟨asked, written, sub, rfl, hasked, hwritten⟩
  · cases herror
  obtain ⟨hnoRow, hsub⟩ := verifiedSub_tryCurrentUserSub hasked
  rcases Prog.runs_bind.mp hwritten with ⟨error, -, herror⟩ | ⟨writing, rest, _, rfl, hwriting, hrest⟩
  · cases herror
  obtain ⟨rfl, -⟩ := Prog.runs_done.mp hrest
  obtain ⟨write, dispose, outcome, rfl, hwrite, ⟨error, -, herror⟩ | ⟨hdispose, houtcome⟩⟩ :=
    Prog.runs_withCleanup.mp hwriting
  · cases herror
  obtain rfl := Prog.runs_call.mp hwrite
  obtain rfl := Prog.runs_call.mp hdispose
  subst houtcome
  refine ⟨requestRow scope sub answered.response, ?_, ?_, rfl⟩
  · simp only [auditRows_append, auditRows_of_elsewhere helsewhere, hnoRow]
    rfl
  · simp only [verifiedSub_append, verifiedSub_of_elsewhere helsewhere, hsub]
    cases sub <;> rfl

/-- What the layers record when they return. -/
theorem layers_return {served : Routed} (h : (layers server ⟨request, none⟩).Runs events (.ok served)) :
    Audited server request events served.response := by
  have hinner : ∀ traceId events served,
      (audit server (requestMetrics (rateLimit server router)) ⟨request, some traceId⟩ >>= fun served =>
        (pure { served with response := served.response.withHeader "x-trace-id" traceId } : Serving Routed)).Runs events
        (.ok served) → Audited server request events served.response := by
    intro traceId events served hrun
    rcases Prog.runs_bind.mp hrun with ⟨error, -, herror⟩ | ⟨before, after, answered, rfl, hbefore, hafter⟩
    · cases herror
    obtain ⟨rfl, hserved⟩ := Prog.runs_done.mp hafter
    cases hserved
    obtain ⟨row, hrow, hactor, htrace⟩ := audit_returns (only_requestMetrics (only_rateLimit only_router)) hbefore
    rw [List.append_nil]
    exact ⟨row, traceId, hrow, hactor, htrace, getHeader_setHeader _ _ _⟩
  rw [layers, traceIds] at h
  cases hasked : askedTraceId request with
  | some traceId =>
    rw [hasked] at h
    exact hinner traceId events served h
  | none =>
    rw [hasked] at h
    rcases Prog.runs_call_bind.mp h with ⟨error, -, herror⟩ | ⟨traceId, rest, rfl, hrest⟩
    · cases herror
    · obtain ⟨row, id, hrow, hactor, htrace⟩ := hinner traceId rest served hrest
      exact ⟨row, id, hrow, hactor, htrace⟩

/-! ## Responses -/

/-- The headers for another origin leave the trace id as it is. -/
theorem traceId_corsHeaders (origin : String) (response : HttpResponse) :
    getHeader (corsHeaders server origin response).headers "x-trace-id" = getHeader response.headers "x-trace-id" := by
  rw [corsHeaders]
  split
  · simp only [HttpResponse.withHeader]
    rw [getHeader_setHeader_of_ne (by decide), getHeader_setHeader_of_ne (by decide),
      getHeader_setHeader_of_ne (by decide)]
  · exact getHeader_setHeader_of_ne (by decide) _ _

/-- The layer for browsers passes on what is no preflight. -/
theorem runs_cors {app : App} (hpreflight : request.isPreflight = false) {result : Except Exc Routed}
    (h : (cors server app ⟨request, none⟩).Runs events result) : ∃ outcome, (app ⟨request, none⟩).Runs events outcome ∧
      ((∃ error, outcome = .error error ∧ result = .error error) ∨ ∃ served passed, outcome = .ok served ∧
        result = .ok passed ∧
          getHeader passed.response.headers "x-trace-id" = getHeader served.response.headers "x-trace-id") := by
  rw [cors] at h
  cases horigin : getHeader request.headers "origin" with
  | none =>
    rw [horigin] at h
    refine ⟨result, h, ?_⟩
    cases result with
    | error error => exact .inl ⟨error, rfl, rfl⟩
    | ok served => exact .inr ⟨served, served, rfl, rfl, rfl⟩
  | some origin =>
    rw [horigin] at h
    simp only [hpreflight, Bool.false_eq_true, if_false] at h
    rcases Prog.runs_bind.mp h with ⟨error, hrun, rfl⟩ | ⟨before, after, served, rfl, hrun, hafter⟩
    · exact ⟨_, hrun, .inl ⟨error, rfl, rfl⟩⟩
    · obtain ⟨rfl, rfl⟩ := Prog.runs_done.mp hafter
      rw [List.append_nil]
      exact ⟨_, hrun, .inr ⟨served, _, rfl, rfl, traceId_corsHeaders origin served.response⟩⟩

/-- The application answers with the response of its layers, or with the error of the server. -/
theorem runs_createApp {response : HttpResponse} (hpreflight : request.isPreflight = false)
    (h : (createApp server request).Runs events (.ok response)) :
    ∃ outcome, (layers server ⟨request, none⟩).Runs events outcome ∧
      ((∃ error, outcome = .error error ∧ response = internalServerError) ∨ ∃ served, outcome = .ok served ∧
        getHeader response.headers "x-trace-id" = getHeader served.response.headers "x-trace-id") := by
  rcases Prog.runs_bind.mp h with ⟨error, -, herror⟩ | ⟨before, after, caught, rfl, hbefore, hafter⟩
  · cases herror
  obtain ⟨result, hcors, heq⟩ := Prog.runs_attempt.mp hbefore
  cases heq
  obtain ⟨outcome, hlayers, ⟨error, rfl, rfl⟩ | ⟨served, passed, rfl, rfl, hheader⟩⟩ := runs_cors hpreflight hcors
  · obtain ⟨rfl, hresponse⟩ := Prog.runs_done.mp hafter
    cases hresponse
    rw [List.append_nil]
    exact ⟨_, hlayers, .inl ⟨error, rfl, rfl⟩⟩
  · obtain ⟨rfl, hresponse⟩ := Prog.runs_done.mp hafter
    cases hresponse
    rw [List.append_nil]
    exact ⟨_, hlayers, .inr ⟨served, rfl, hheader⟩⟩

/-- A response without a trace id has no row of its own. -/
theorem not_audited_internalServerError : ¬ Audited server request events internalServerError := by
  rintro ⟨row, traceId, -, -, -, hheader⟩
  cases hheader

/-- Every request but a preflight is answered, and it is audited exactly when no exception arises in its run that
nobody handles. -/
theorem createApp_audited_iff {response : HttpResponse} (hpreflight : request.isPreflight = false)
    (h : (createApp server request).Runs events (.ok response)) :
    Audited server request events response ↔ ∀ event ∈ events, Settled server request event := by
  obtain ⟨outcome, hlayers, houtcome⟩ := runs_createApp hpreflight h
  rw [← settles_layers request events outcome hlayers]
  rcases houtcome with ⟨error, rfl, rfl⟩ | ⟨served, rfl, hheader⟩
  · exact iff_of_false not_audited_internalServerError (by simp)
  · obtain ⟨row, traceId, hrow, hactor, htrace, hserved⟩ := layers_return hlayers
    refine iff_of_true ?_ ⟨served, rfl⟩
    exact ⟨row, traceId, hrow, hactor, htrace, hheader.trans hserved⟩

/-- A server whose token library accepts every token for one subject. -/
def lenient : Server := ⟨"https://fleet", 100, fun _ _ => .ok [("sub", .str "kc-7")]⟩

/-- A request with a token and a trace id. -/
def askWhoami : HttpRequest :=
  ⟨"GET", "/v1/whoami", [("authorization", "Bearer t"), ("x-trace-id", "t1")], some "10.0.0.1"⟩

/-- What happens up to the handler. -/
def untilHandler : List HttpEvent :=
  [⟨.monotonic, .ok 0⟩, ⟨.time, .ok 0⟩,
    ⟨.redisIncr ("ratelimit:" ++ "10.0.0.1" ++ ":" ++ Int.repr ⌊(0 : ℚ) / 60⌋), .ok 2⟩, ⟨.redisClose, .ok ()⟩,
    ⟨.matchRoute askWhoami, .ok (some "/v1/whoami")⟩]

/-- What happens from the handler on. -/
def fromHandler : List HttpEvent :=
  [⟨.handle ⟨askWhoami, some "t1"⟩, .ok ⟨200, [], .null⟩⟩, ⟨.monotonic, .ok 1⟩,
    ⟨.countRequest "GET" "/v1/whoami" (Nat.repr 200), .ok ()⟩, ⟨.observeDuration "GET" "/v1/whoami" (1 - 0), .ok ()⟩,
    ⟨.fetchJwks, .ok .null⟩,
    ⟨.writeAudit (requestRow ⟨askWhoami, some "t1"⟩ (some (.str "kc-7")) ⟨200, [], .null⟩), .ok ()⟩,
    ⟨.disposeEngine, .ok ()⟩]

/-- A request that is answered. -/
theorem askWhoami_runs : (createApp lenient askWhoami).Runs (untilHandler ++ fromHandler)
    (.ok ⟨200, [("x-trace-id", "t1")], .null⟩) :=
  .await (.await (.await (.await (.await (.await (.await (.await (.await (.await (.await (.await (.done _))))))))))))

/-- It is audited. -/
theorem askWhoami_audited :
    Audited lenient askWhoami (untilHandler ++ fromHandler) ⟨200, [("x-trace-id", "t1")], .null⟩ := by
  have hpreflight : askWhoami.isPreflight = false := rfl
  have hsubject : ∀ token, ∃ sub, subFrom lenient token (.ok .null) = .ok sub := fun token => ⟨_, rfl⟩
  refine (createApp_audited_iff hpreflight askWhoami_runs).mpr ?_
  simp only [untilHandler, fromHandler, List.cons_append, List.nil_append, List.forall_mem_cons]
  exact ⟨⟨_, rfl⟩, ⟨_, rfl⟩, ⟨_, rfl⟩, ⟨_, rfl⟩, ⟨_, rfl⟩, .inl ⟨_, rfl⟩, ⟨_, rfl⟩, ⟨_, rfl⟩, ⟨_, rfl⟩,
    fun token _ => hsubject token, ⟨_, rfl⟩, ⟨_, rfl⟩, fun _ hnone => by cases hnone⟩

/-- A handler that raises an exception without a response: no row, and a response without a trace id. -/
theorem askWhoami_not_audited :
    (createApp lenient askWhoami).Runs
        (untilHandler ++ [⟨.handle ⟨askWhoami, some "t1"⟩, .error ⟨.keyError, "'x'"⟩⟩]) (.ok internalServerError) ∧
      ¬ Audited lenient askWhoami
        (untilHandler ++ [⟨.handle ⟨askWhoami, some "t1"⟩, .error ⟨.keyError, "'x'"⟩⟩]) internalServerError :=
  ⟨.await (.await (.await (.await (.await (.await (.done _)))))), not_audited_internalServerError⟩

end FleetWorkflow.Api
