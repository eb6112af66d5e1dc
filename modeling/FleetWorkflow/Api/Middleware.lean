import FleetWorkflow.Api.Http

/-!
# Middleware

The layers around the router: errors of the server outermost, then cross-origin requests, trace ids,
the audit, metrics and the rate limit, and innermost the handlers of exceptions. A layer that is
added later lies further out.
-/

namespace FleetWorkflow.Api

open Python Async

/-- The settings and the library that the layers use: `jwtDecode` verifies a token against a key set, the audience
and the issuer. -/
structure Server where
  webOrigin : String
  rateLimitPerMinute : ℤ
  jwtDecode : String → Json → Except Exc Dict

/-! ## Tokens -/

/-- `UnauthorizedError(message)`. -/
def unauthorizedError (message : String) : Exc := ⟨.app 401 "unauthorized", message⟩

/-- A principal from a verified token; the roles are those of its claims. -/
structure CurrentUser where
  sub : Json
  roles : List Json
  email : Json

/-- `claims.get(key)`. -/
def claim (claims : Dict) (key : String) : Json := (Json.get? claims key).getD .null

/-- A value that can be an element of a set. -/
def hashable : Json → Bool
  | .arr _ => false
  | .obj _ => false
  | _ => true

/-- `_extract_roles(claims)`. -/
def extractRoles (claims : Dict) : Except Exc (List Json) := do
  let realm := if (claim claims "realm_access").truthy then claim claims "realm_access" else .obj []
  let roles ← (← realm.getOr "roles" (.arr [])).iterate
  if roles.all hashable then return roles else throw ⟨.typeError, "unhashable type"⟩

/-- The principal of verified claims. -/
def userOf (claims : Dict) : Except Exc CurrentUser :=
  if (claim claims "sub").truthy then do
    return ⟨claim claims "sub", ← extractRoles claims, claim claims "email"⟩
  else .error (unauthorizedError "token missing sub")

/-- The exceptions of the token library and of the key server become one of the domain. -/
def invalidToken (error : Exc) : Exc :=
  if error.kind = .jwt ∨ error.kind = .httpx then unauthorizedError "invalid token" else error

variable (server : Server)

/-- `verify_bearer_token(token, settings)`. -/
def verifyBearerToken (token : String) : Serving CurrentUser := do
  let claims ← (do
    let jwks ← awaitHttp .fetchJwks
    Prog.ofExcept (server.jwtDecode token jwks) : Serving Dict).mapError invalidToken
  Prog.ofExcept (userOf claims)

/-- The token of an `Authorization` header. -/
def bearerToken (authHeader : Option String) : Option String :=
  match authHeader with
  | some header => if "Bearer ".toList.isPrefixOf header.toList then some (String.ofList (header.toList.drop 7)) else none
  | none => none

/-- What becomes of a principal that may not be verified. -/
def subOrNone : Except Exc CurrentUser → Except Exc (Option Json)
  | .ok user => .ok (some user.sub)
  | .error error => if error.kind = .app 401 "unauthorized" then .ok none else .error error

/-- `try_current_user_sub(auth_header, settings)`. -/
def tryCurrentUserSub (authHeader : Option String) : Serving (Option Json) :=
  match bearerToken authHeader with
  | none => return none
  | some token => do
    let outcome ← (verifyBearerToken server token).attempt
    Prog.ofExcept (subOrNone outcome)

/-! ## Layers -/

/-- The responses to exceptions that have a handler. -/
def errorResponse : Exc → Option HttpResponse
  | ⟨.app status code, message⟩ =>
    some ⟨status, [], .obj [("error", .obj [("code", .str code), ("message", .str message)])]⟩
  | ⟨.http status, detail⟩ => some ⟨status, [], .obj [("detail", .str detail)]⟩
  | ⟨.requestValidation, detail⟩ => some ⟨422, [], .obj [("detail", .str detail)]⟩
  | _ => none

/-- The router inside the handlers of exceptions. -/
def router : App := fun scope => do
  let route ← awaitHttp (.matchRoute scope.request)
  let response ← (awaitHttp (.handle scope)).handle errorResponse
  return ⟨response, route⟩

/-- `RateLimitMiddleware.dispatch(request, call_next)`. -/
def rateLimit (app : App) : App := fun scope => do
  let client := scope.request.client.getD "unknown"
  let now ← awaitHttp .time
  let key := "ratelimit:" ++ client ++ ":" ++ Int.repr ⌊now / 60⌋
  let count ← (do
    let count ← awaitHttp (.redisIncr key)
    if count = 1 then awaitHttp (.redisExpire key 60)
    return count : Serving ℤ).withCleanup (awaitHttp .redisClose)
  if server.rateLimitPerMinute < count then
    let refusal : Json := .obj [("code", .str "rate_limited"), ("message", .str "too many requests")]
    return ⟨⟨429, [], .obj [("error", refusal)]⟩, none⟩
  app scope

/-- `RequestMetricsMiddleware.dispatch(request, call_next)`. -/
def requestMetrics (app : App) : App := fun scope => do
  let start ← awaitHttp .monotonic
  let served ← app scope
  let now ← awaitHttp .monotonic
  let path := served.route.getD "unmatched"
  awaitHttp (.countRequest scope.request.method path (Nat.repr served.response.status))
  awaitHttp (.observeDuration scope.request.method path (now - start))
  return served

/-- The row of a request that was answered. -/
def requestRow (scope : Scope) (sub : Option Json) (response : HttpResponse) : AuditRow where
  actor := sub.getD (.str "anonymous")
  actorType := if sub.isSome then "user" else "anonymous"
  action := scope.request.method ++ " " ++ scope.request.path
  entity := some "http_request"
  entityId := some (Nat.repr response.status)
  traceId := scope.traceId

/-- `AuditMiddleware.dispatch(request, call_next)`. -/
def audit (app : App) : App := fun scope => do
  let served ← app scope
  let sub ← tryCurrentUserSub server (getHeader scope.request.headers "authorization")
  (awaitHttp (.writeAudit (requestRow scope sub served.response))).withCleanup (awaitHttp .disposeEngine)
  return served

/-- The trace id that the client asks for. -/
def askedTraceId (request : HttpRequest) : Option String :=
  (getHeader request.headers "x-trace-id").filter (· ≠ "")

/-- `TraceIdMiddleware.dispatch(request, call_next)`. -/
def traceIds (app : App) : App := fun scope => do
  let traceId ← match askedTraceId scope.request with
    | some traceId => pure traceId
    | none => awaitHttp .newTraceId
  let served ← app { scope with traceId := some traceId }
  return { served with response := served.response.withHeader "x-trace-id" traceId }

/-- A request that a browser makes before another one. -/
def HttpRequest.isPreflight (request : HttpRequest) : Bool :=
  request.method = "OPTIONS" && (getHeader request.headers "origin").isSome &&
    (getHeader request.headers "access-control-request-method").isSome

/-- The headers of a response to a request from another origin. -/
def corsHeaders (origin : String) (response : HttpResponse) : HttpResponse :=
  let credentials := response.withHeader "access-control-allow-credentials" "true"
  if origin = server.webOrigin then
    let vary := match getHeader credentials.headers "vary" with
      | some existing => existing ++ ", Origin"
      | none => "Origin"
    (credentials.withHeader "access-control-allow-origin" origin).withHeader "vary" vary
  else credentials

/-- The methods that another origin may use. -/
def allMethods : List String := ["DELETE", "GET", "HEAD", "OPTIONS", "PATCH", "POST", "PUT"]

/-- The response to a preflight. -/
def preflightResponse (origin : String) (requestedMethod : Option String) : HttpResponse :=
  let failures := (if origin = server.webOrigin then [] else ["origin"]) ++
    if requestedMethod.any (· ∈ allMethods) then [] else ["method"]
  if failures = [] then ⟨200, [], .str "OK"⟩
  else ⟨400, [], .str ("Disallowed CORS " ++ String.intercalate ", " failures)⟩

/-- `CORSMiddleware`: a preflight is answered here. -/
def cors (app : App) : App := fun scope =>
  match getHeader scope.request.headers "origin" with
  | none => app scope
  | some origin =>
    if scope.request.isPreflight then
      return ⟨preflightResponse server origin (getHeader scope.request.headers "access-control-request-method"), none⟩
    else do
      let served ← app scope
      return { served with response := corsHeaders server origin served.response }

/-- The response to an exception that nobody handles. -/
def internalServerError : HttpResponse := ⟨500, [], .str "Internal Server Error"⟩

/-- The errors of the server: every exception becomes a response. -/
def serverErrors (app : App) (request : HttpRequest) : Serving HttpResponse := do
  match ← (app ⟨request, none⟩).attempt with
  | .ok served => return served.response
  | .error _ => return internalServerError

/-- The layers inside those for browsers. -/
def layers : App := traceIds (audit server (requestMetrics (rateLimit server router)))

/-- The application of `create_app()`. -/
def createApp (request : HttpRequest) : Serving HttpResponse := serverErrors (cors server (layers server)) request

end FleetWorkflow.Api
