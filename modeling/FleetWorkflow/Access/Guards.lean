import FleetWorkflow.Access.Directory
import FleetWorkflow.Api.Subjects

/-!
# Who may make a request

The permissions of the roles, and the dependencies that let a request through: the current user with
roles from the tables, a service's key, or either of the two.
-/

namespace FleetWorkflow.Access

open Python Async Api

/-! ## Roles and permissions -/

/-- `Permission`. -/
inductive Permission where
  | chat
  | upload
  | manageAgents
  | approve
  | manageDept
  | managePlatform
deriving DecidableEq, Repr

/-- `permission.value`. -/
def Permission.value : Permission → String
  | chat => "chat"
  | upload => "upload"
  | manageAgents => "manage_agents"
  | approve => "approve"
  | manageDept => "manage_dept"
  | managePlatform => "manage_platform"

/-- `ROLE_PERMISSIONS`. -/
def rolePermissions : List (String × List Permission) :=
  [("member", [.chat, .upload]),
    ("builder", [.chat, .upload, .manageAgents]),
    ("approver", [.chat, .upload, .approve]),
    ("dept_admin", [.chat, .upload, .manageAgents, .approve, .manageDept]),
    ("platform_admin", [.chat, .upload, .manageAgents, .approve, .manageDept, .managePlatform])]

/-- `ROLE_PERMISSIONS.get(role, set())`. -/
def permissionsOf (role : Json) : List Permission :=
  match textOf role with
  | some name => ((rolePermissions.find? fun entry => entry.1 = name).map Prod.snd).getD []
  | none => []

/-- `permissions_for(roles)`. -/
def permissionsFor (roles : List Json) : List Permission := roles.flatMap permissionsOf

/-- What roles permit depends on which they are only. -/
theorem mem_permissionsFor {roles : List Json} {permission : Permission} :
    permission ∈ permissionsFor roles ↔ ∃ role ∈ roles, permission ∈ permissionsOf role := List.mem_flatMap

/-! ## The current user -/

/-- `ForbiddenError(message)`. -/
def forbiddenError (message : String) : Exc := ⟨.app 403 "forbidden", message⟩

/-- The hash of an address that a token claims. -/
def emailHashOf (py : Builtins) : Json → Except Exc String
  | .str email => .ok (if email = "" then "" else subjectHash py email)
  | email => if email.truthy then .error ⟨.attributeError, "object has no attribute 'strip'"⟩ else .ok ""

/-- `get_or_create_user(session, kc_sub=..., email=...)`. -/
def getOrCreateUser (py : Builtins) (kcSub email : Json) : Accessing UserRow := do
  match ← awaitAccess (.findUser kcSub) with
  | some row =>
    if row.emailHash = "" && email.truthy then
      let emailHash ← Prog.ofExcept (emailHashOf py email)
      awaitAccess (.setEmailHash row.id emailHash)
      return { row with emailHash := emailHash }
    else return row
  | none => do
    let emailHash ← Prog.ofExcept (emailHashOf py email)
    awaitAccess (.insertUser kcSub emailHash)

/-- `seed_roles_from_jwt(session, user, jwt_roles)`. -/
def seedRolesFromJwt (user : UserRow) (jwtRoles : List Json) : Accessing Unit := do
  if ← awaitAccess (.hasRole user.id) then return ()
  else awaitAccess (.insertRoles user.id jwtRoles)

/-- The headers by which a request says who makes it: the bearer token and the key. -/
structure Presented where
  bearer : Option String
  apiKey : Option String

/-- A token that is there and not empty. -/
def Presented.token (presented : Presented) : Option String := presented.bearer.filter fun token => token ≠ ""

/-- A key that is there and not empty. -/
def Presented.key (presented : Presented) : Option String := presented.apiKey.filter fun key => key ≠ ""

variable (server : Server) (py : Builtins) (presented : Presented)

/-- `verify_bearer_token(token, settings)` among the calls of authorization. -/
def verifyToken (token : String) : Accessing CurrentUser :=
  (verifyBearerToken server token).embed AccessCall.http fun _ reply => reply

/-- `get_current_user(credentials, settings, session)`. -/
def getCurrentUser : Accessing CurrentUser :=
  match presented.token with
  | none => .raise (unauthorizedError "missing bearer token")
  | some token => do
    let jwtUser ← verifyToken server token
    let dbUser ← getOrCreateUser py jwtUser.sub jwtUser.email
    seedRolesFromJwt dbUser jwtUser.roles
    awaitAccess .commit
    let dbRoles ← awaitAccess (.loadRoles dbUser.id)
    return ⟨jwtUser.sub, dbRoles.map .str, .null⟩

/-! ## Keys of services -/

/-- `validate_record(record, now=...)`, whose `ApiKeyInvalid` becomes an `UnauthorizedError` with its text. -/
def validateRecord (record : Option ApiKeyRow) (now : ℚ) : Except Exc ApiKeyRow :=
  match record with
  | none => .error (unauthorizedError "unknown api key")
  | some record =>
    if record.revokedAt.isSome then .error (unauthorizedError "revoked api key")
    else
      match record.expiresAt with
      | some expiresAt => if expiresAt ≤ now then .error (unauthorizedError "expired api key") else .ok record
      | none => .ok record

/-- Look a key up by its hash and check that it is usable. -/
def usableKey (rawKey : String) : Accessing ApiKeyRow := do
  let record ← awaitAccess (.findApiKey (Python.sha256 (encodeUtf8 rawKey)))
  let now ← awaitAccess .now
  Prog.ofExcept (validateRecord record now)

/-- `get_current_service_key(x_fleet_api_key, session)`. -/
def getCurrentServiceKey : Accessing ApiKeyRow :=
  match presented.key with
  | none => .raise (unauthorizedError "missing X-Fleet-Api-Key header")
  | some rawKey => usableKey rawKey

/-! ## Guards -/

/-- The principal that a request is made by. -/
inductive Principal where
  | anyone
  | user (user : CurrentUser)
  | service (key : ApiKeyRow)

/-- The check of a key's scope. -/
def withScope (scope : String) (key : ApiKeyRow) : Except Exc ApiKeyRow :=
  if scope ∈ key.scopes then .ok key else .error (forbiddenError ("api key missing scope: " ++ scope))

/-- The check of a user's permission. -/
def withPermission (permission : Permission) (user : CurrentUser) : Except Exc CurrentUser :=
  if permission ∈ permissionsFor user.roles then .ok user
  else .error (forbiddenError ("missing permission: " ++ permission.value))

/-- `require_permission(permission)`. -/
def requirePermission (permission : Permission) : Accessing CurrentUser := do
  Prog.ofExcept (withPermission permission (← getCurrentUser server py presented))

/-- `require_scope(scope)`. -/
def requireScope (scope : String) : Accessing ApiKeyRow := do
  Prog.ofExcept (withScope scope (← getCurrentServiceKey presented))

/-- `require_user_or_service_scope(permission, scope)`. -/
def requireUserOrServiceScope (permission : Permission) (scope : String) : Accessing Principal :=
  match presented.token with
  | some token => do
    let user ← Prog.ofExcept (withPermission permission (← verifyToken server token))
    return .user user
  | none =>
    match presented.key with
    | some rawKey => do
      let key ← Prog.ofExcept (withScope scope (← usableKey rawKey))
      return .service key
    | none => .raise (unauthorizedError "missing bearer token or X-Fleet-Api-Key header")

/-- What an endpoint asks of a request. A parameter that is the current user shares its one resolution
with the permission; the role is the one that the handler looks for itself before it does anything. -/
inductive Guard where
  | anyone
  | permission (permission : Permission)
  | permissionAndRole (permission : Permission) (role : String)
  | scope (scope : String)
  | userOrScope (permission : Permission) (scope : String)
deriving DecidableEq

/-- The check of `reveal_credentials` for a role. -/
def withRole (role : String) (user : CurrentUser) : Except Exc CurrentUser :=
  if user.roles.any (fun found => found.eqStr role) then .ok user
  else .error ⟨.http 403, "reveal requires the " ++ role ++ " role"⟩

/-- Let a request through to an endpoint. -/
def authorize : Guard → Accessing Principal
  | .anyone => return .anyone
  | .permission permission => do return .user (← requirePermission server py presented permission)
  | .permissionAndRole permission role => do
    let user ← requirePermission server py presented permission
    return .user (← Prog.ofExcept (withRole role user))
  | .scope scope => do return .service (← requireScope presented scope)
  | .userOrScope permission scope => requireUserOrServiceScope server presented permission scope

/-! ## Specifications -/

/-- What a token is verified to, given the reply of the key server. -/
def verified (token : String) (jwks : Except Exc Json) : Except Exc CurrentUser :=
  ((jwks.bind fun keys => server.jwtDecode token keys).mapError invalidToken).bind userOf

variable {server}

/-- A token is verified by one call. -/
theorem verifyToken_eq (token : String) :
    verifyToken server token = .await (.http .fetchJwks) fun reply => .ofExcept (verified server token reply) := by
  refine congrArg (Prog.await (AccessCall.http .fetchJwks)) (funext fun reply => ?_)
  cases reply with
  | error error => rfl
  | ok jwks =>
    show Prog.embed _ _ ((((Prog.ofExcept (server.jwtDecode token jwks)).attempt >>= fun outcome =>
      Prog.ofExcept (outcome.mapError invalidToken)) >>= fun claims => Prog.ofExcept (userOf claims)) : Serving CurrentUser) = _
    rw [verified]
    show _ = Prog.ofExcept ((Except.mapError invalidToken (server.jwtDecode token jwks)).bind userOf)
    cases server.jwtDecode token jwks with
    | error error => rfl
    | ok claims =>
      show Prog.embed _ _ (Prog.ofExcept (userOf claims) : Serving CurrentUser) = Prog.ofExcept (userOf claims)
      cases userOf claims with
      | error error => rfl
      | ok user => rfl

end FleetWorkflow.Access
