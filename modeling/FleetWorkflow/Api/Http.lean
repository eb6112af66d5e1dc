import Mathlib.Data.Rat.Floor
import FleetWorkflow.Async.Prog
import FleetWorkflow.Python.Value

/-!
# Requests and responses

What the middleware sees of a request and of a response, and what it waits for. The router with the
handler behind it is one call.
-/

namespace FleetWorkflow.Api

open Python Async

/-- Headers under their names in lower case. -/
abbrev Headers := List (String × String)

/-- `headers.get(name)`. -/
def getHeader (headers : Headers) (name : String) : Option String :=
  (headers.find? fun header => header.1 = name).map Prod.snd

/-- `headers[name] = value`. -/
def setHeader (name value : String) : Headers → Headers
  | [] => [(name, value)]
  | (other, old) :: rest =>
    if other = name then (name, value) :: rest.filter fun header => header.1 ≠ name
    else (other, old) :: setHeader name value rest

/-- A header that was set. -/
@[simp] theorem getHeader_setHeader (name value : String) (headers : Headers) :
    getHeader (setHeader name value headers) name = some value := by
  induction headers with
  | nil => simp [setHeader, getHeader]
  | cons header rest ih =>
    obtain ⟨other, old⟩ := header
    by_cases hname : other = name
    · simp [setHeader, getHeader, hname]
    · simpa [setHeader, getHeader, hname] using ih

/-- Another header stays as it is. -/
theorem getHeader_setHeader_of_ne {name other : String} (hne : other ≠ name) (value : String) (headers : Headers) :
    getHeader (setHeader name value headers) other = getHeader headers other := by
  have hname : name ≠ other := hne.symm
  induction headers with
  | nil => simp [setHeader, getHeader, hname]
  | cons header rest ih =>
    obtain ⟨first, old⟩ := header
    by_cases hfirst : first = name
    · subst hfirst
      simp only [setHeader, if_pos, getHeader, List.find?_cons_of_neg, hname, decide_false, Bool.false_eq_true,
        not_false_eq_true]
      rw [List.find?_filter]
      congr 2
      funext header
      by_cases hheader : header.1 = other
      · simp [hheader, hne]
      · simp [hheader]
    · by_cases hother : first = other
      · simp [setHeader, getHeader, hother, hne]
      · simpa [setHeader, getHeader, hfirst, hother] using ih

/-- A request over HTTP. -/
structure HttpRequest where
  method : String
  path : String
  headers : Headers
  client : Option String

/-- A response; a body that is streamed is not part of it. -/
structure HttpResponse where
  status : ℕ
  headers : Headers
  body : Json

/-- A response with another header. -/
def HttpResponse.withHeader (response : HttpResponse) (name value : String) : HttpResponse :=
  { response with headers := setHeader name value response.headers }

/-- A request with the state that the layers share. -/
structure Scope where
  request : HttpRequest
  traceId : Option String

/-- A response with the template of the route that was matched. -/
structure Routed where
  response : HttpResponse
  route : Option String

/-- A row of `audit_log`. -/
structure AuditRow where
  actor : Json
  actorType : String
  action : String
  entity : Option String
  entityId : Option String
  traceId : Option String

/-- What the middleware can wait for. -/
inductive HttpCall where
  | newTraceId
  | fetchJwks
  | time
  | monotonic
  | redisIncr (key : String)
  | redisExpire (key : String) (seconds : ℕ)
  | redisClose
  | matchRoute (request : HttpRequest)
  | handle (scope : Scope)
  | countRequest (method path status : String)
  | observeDuration (method path : String) (duration : ℚ)
  | writeAudit (row : AuditRow)
  | disposeEngine

/-- What each call returns. -/
@[reducible] def HttpCall.Reply : HttpCall → Type
  | newTraceId => String
  | fetchJwks => Json
  | time => ℚ
  | monotonic => ℚ
  | redisIncr _ => ℤ
  | matchRoute _ => Option String
  | handle _ => HttpResponse
  | _ => Unit

/-- A coroutine of the web server. -/
abbrev Serving := Prog HttpCall HttpCall.Reply Exc

/-- Await one call. -/
abbrev awaitHttp (c : HttpCall) : Serving c.Reply := Prog.call c

/-- An application over requests. -/
abbrev App := Scope → Serving Routed

end FleetWorkflow.Api
