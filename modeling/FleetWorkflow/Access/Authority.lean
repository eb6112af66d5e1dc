import FleetWorkflow.Access.Guards
import FleetWorkflow.Api.Erasure

/-!
# Which roles decide

The guards of all endpoints, and what a request's outcome depends on. Where the current user is
asked for, the roles are those of the tables as soon as there are any; where a user or a service is
asked for, they are those of the token.
-/

namespace FleetWorkflow.Access

open Python Async Api

/-- An endpoint by its router and its handler. -/
structure Endpoint where
  router : String
  handler : String
  guard : Guard
deriving DecidableEq

/-- The routers of `create_app`. -/
def endpoints : List Endpoint :=
  [⟨"health", "healthz", .anyone⟩,
    ⟨"health", "readyz", .anyone⟩,
    ⟨"metrics", "metrics", .anyone⟩,
    ⟨"whoami", "whoami", .permission .chat⟩,
    ⟨"whoami", "admin_only", .permission .managePlatform⟩,
    ⟨"models_admin", "add_model", .permission .managePlatform⟩,
    ⟨"models_admin", "list_models", .permission .managePlatform⟩,
    ⟨"models_admin", "get_model", .permission .managePlatform⟩,
    ⟨"models_admin", "delete_model", .permission .managePlatform⟩,
    ⟨"agents_admin", "create_agent", .permission .manageAgents⟩,
    ⟨"agents_admin", "list_agents", .permission .manageAgents⟩,
    ⟨"agents_admin", "get_agent", .permission .manageAgents⟩,
    ⟨"agents_admin", "update_agent", .permission .manageAgents⟩,
    ⟨"agents_admin", "delete_agent", .permission .manageAgents⟩,
    ⟨"agents_admin", "pause_agent", .permission .manageAgents⟩,
    ⟨"agents_admin", "resume_agent", .permission .manageAgents⟩,
    ⟨"agents_admin", "get_global_read_only", .permission .managePlatform⟩,
    ⟨"agents_admin", "set_global_read_only", .permission .managePlatform⟩,
    ⟨"collections", "create_collection", .permission .manageDept⟩,
    ⟨"collections", "list_collections", .permission .upload⟩,
    ⟨"collections", "get_collection", .permission .upload⟩,
    ⟨"collections", "update_collection", .permission .manageDept⟩,
    ⟨"collections", "delete_collection", .permission .manageDept⟩,
    ⟨"documents", "upload_document", .permission .upload⟩,
    ⟨"documents", "list_documents", .permission .upload⟩,
    ⟨"documents", "get_document", .permission .upload⟩,
    ⟨"rag_query", "query", .permission .upload⟩,
    ⟨"chat", "list_chat_agents", .permission .chat⟩,
    ⟨"chat", "create_conversation", .permission .chat⟩,
    ⟨"chat", "send_message", .permission .chat⟩,
    ⟨"chat", "submit_feedback", .permission .chat⟩,
    ⟨"approvals", "list_approvals", .permission .approve⟩,
    ⟨"approvals", "decide_approval", .permission .approve⟩,
    ⟨"dev_agent", "list_tickets", .permission .manageAgents⟩,
    ⟨"dev_agent", "start_run", .permission .manageAgents⟩,
    ⟨"api_keys_admin", "issue_api_key", .permission .managePlatform⟩,
    ⟨"api_keys_admin", "list_api_keys", .permission .managePlatform⟩,
    ⟨"api_keys_admin", "revoke_api_key", .permission .managePlatform⟩,
    ⟨"service", "pg_query", .scope "pg_ro"⟩,
    ⟨"service", "slack_post", .scope "slack_post"⟩,
    ⟨"service", "agent_run", .scope "agent_run"⟩,
    ⟨"service", "email_send", .scope "email_send"⟩,
    ⟨"service", "notify", .scope "notify"⟩,
    ⟨"invoice_agent", "start_run", .userOrScope .manageAgents "invoice_intake"⟩,
    ⟨"hr_agent", "start_run", .userOrScope .manageAgents "hr_intake"⟩,
    ⟨"listing_quality", "start_run", .userOrScope .manageAgents "listing_intake"⟩,
    ⟨"insights_publisher", "start_run", .userOrScope .manageAgents "insights_publish"⟩,
    ⟨"dealer_onboarding", "start_run", .userOrScope .manageAgents "dealer_onboarding"⟩,
    ⟨"legal_review", "start_run", .permission .manageAgents⟩,
    ⟨"examples", "list_examples", .permission .chat⟩,
    ⟨"examples", "create_example", .permission .chat⟩,
    ⟨"workflows", "list_catalog", .permission .chat⟩,
    ⟨"workflows", "run_invoice_intake", .permission .upload⟩,
    ⟨"workflows", "run_weekly_summary", .permission .manageAgents⟩,
    ⟨"workflows", "activate_workflow", .permission .manageAgents⟩,
    ⟨"workflows", "deactivate_workflow", .permission .manageAgents⟩,
    ⟨"recipes", "list_recipes", .permission .chat⟩,
    ⟨"recipes", "get_recipe", .permission .chat⟩,
    ⟨"recipes", "preview_recipe", .permission .manageAgents⟩,
    ⟨"recipes", "create_recipe", .permission .manageAgents⟩,
    ⟨"recipes", "update_recipe", .permission .manageAgents⟩,
    ⟨"recipes", "delete_recipe", .permission .manageAgents⟩,
    ⟨"recipes", "activate_recipe", .permission .manageAgents⟩,
    ⟨"recipes", "deactivate_recipe", .permission .manageAgents⟩,
    ⟨"recipes", "run_recipe", .permission .manageAgents⟩,
    ⟨"users_admin", "list_users", .permission .managePlatform⟩,
    ⟨"users_admin", "update_user_dept", .permission .managePlatform⟩,
    ⟨"users_admin", "add_role", .permission .managePlatform⟩,
    ⟨"users_admin", "remove_role", .permission .managePlatform⟩,
    ⟨"users_admin", "list_departments", .permission .managePlatform⟩,
    ⟨"budgets_admin", "create_budget", .permission .managePlatform⟩,
    ⟨"budgets_admin", "list_budgets", .permission .managePlatform⟩,
    ⟨"budgets_admin", "update_budget", .permission .managePlatform⟩,
    ⟨"budgets_admin", "delete_budget", .permission .managePlatform⟩,
    ⟨"observability_admin", "cost_summary", .permission .managePlatform⟩,
    ⟨"observability_admin", "list_audit", .permission .managePlatform⟩,
    ⟨"services_admin", "list_services", .permission .managePlatform⟩,
    ⟨"services_admin", "reveal_credentials", .permissionAndRole .managePlatform "platform_admin"⟩,
    ⟨"subjects", "erase_subject", .permission .managePlatform⟩]

/-- A request with what is around it and the tables that it finds. -/
structure Visit where
  surroundings : Surroundings
  directory : Directory
  presented : Presented

variable (server : Server) (py : Builtins)

/-- Who a request is made by, or why it is refused. -/
def Visit.outcome (visit : Visit) (guard : Guard) : Except Exc Principal :=
  ((authorize server py visit.presented guard).run (Session.answer visit.surroundings) visit.directory.session).2

/-- Whether a request is let through, or why not. -/
def Visit.admission (visit : Visit) (guard : Guard) : Except Exc Unit := (visit.outcome server py guard).map fun _ => ()

/-- The token of a request is verified to a subject, whose address is a text if it is claimed, and
no statement fails. -/
structure Visit.Carries (visit : Visit) (sub : String) (user : CurrentUser) : Prop where
  token : ∃ token, visit.presented.token = some token ∧
    verified server token (visit.surroundings.http .fetchJwks) = .ok user
  sub : user.sub = .str sub
  email : user.email = .null ∨ ∃ email, user.email = .str email
  fault : ∀ c, visit.surroundings.fault c = none

/-- The subject has a role in the tables. -/
def Directory.SubjectHolds (d : Directory) (sub role : String) : Prop :=
  ∃ row, d.findUser sub = some row ∧ d.Holds row.id role

/-- Two requests have tokens of one subject and find the same roles of it, of which there is at least
one; they come with the same key and find the same keys at the same time. -/
structure SameSubject (first second : Visit) (sub : String) : Prop where
  roles : ∀ role, first.directory.SubjectHolds sub role ↔ second.directory.SubjectHolds sub role
  stored : ∃ role, first.directory.SubjectHolds sub role
  key : first.presented.key = second.presented.key
  apiKeys : first.directory.apiKeys = second.directory.apiKeys
  time : first.surroundings.time = second.surroundings.time

variable {server py}

/-! ## Requests that nothing fails for -/

section Calm

variable {surroundings : Surroundings} (hcalm : ∀ c, surroundings.fault c = none)
include hcalm

/-- Every statement is carried out. -/
theorem answer_calm (s : Session) (c : AccessCall) : s.answer surroundings c =
    match s.carryOut surroundings c with
    | .ok (s', reply) => (s', .ok reply)
    | .error error => (s, .error error) := by
  have hnone := hcalm c
  cases hcarried : s.carryOut surroundings c with
  | ok out => simp [Session.answer, hnone, hcarried]
  | error error => simp [Session.answer, hnone, hcarried]

/-- A call that is carried out at the start of a sequence. -/
theorem run_call_bind_calm {s : Session} {c : AccessCall} {α : Type} {f : c.Reply → Accessing α} (s' : Session)
    (reply : c.Reply) (h : s.carryOut surroundings c = .ok (s', reply)) :
    (awaitAccess c >>= f).run (Session.answer surroundings) s = (f reply).run (Session.answer surroundings) s' := by
  have hrun : (awaitAccess c).run (Session.answer surroundings) s = (s', .ok reply) := by
    rw [awaitAccess, Prog.run_call, answer_calm hcalm, h]
  rw [Prog.run_bind, hrun]

/-- A verified token. -/
theorem run_verifyToken_bind_calm {s : Session} {token : String} {user : CurrentUser} {α : Type}
    {f : CurrentUser → Accessing α} (h : verified server token (surroundings.http .fetchJwks) = .ok user) :
    (verifyToken server token >>= f).run (Session.answer surroundings) s =
      (f user).run (Session.answer surroundings) s := by
  have hanswer : s.answer surroundings (.http .fetchJwks) = (s, surroundings.http .fetchJwks) := by
    rw [answer_calm hcalm]
    simp only [Session.carryOut]
    cases surroundings.http .fetchJwks with
    | ok jwks => rfl
    | error error => rfl
  rw [verifyToken_eq, Prog.await_bind]
  show Prog.run _ (Prog.ofExcept (verified server token (s.answer surroundings (.http .fetchJwks)).2) >>= f)
    (s.answer surroundings (.http .fetchJwks)).1 = _
  rw [hanswer, h]
  rfl

/-- A known user is found; at most the hash of the address is written. -/
theorem run_getOrCreateUser_bind_calm (py : Builtins) (s : Session) {sub : String} {row : UserRow} {email : Json}
    {α : Type} (f : UserRow → Accessing α) (hfound : s.pending.findUser sub = some row)
    (hemail : email = .null ∨ ∃ text, email = .str text) :
    ∃ s' row', row'.id = row.id ∧ s'.pending.roles = s.pending.roles ∧
      (getOrCreateUser py (.str sub) email >>= f).run (Session.answer surroundings) s =
        (f row').run (Session.answer surroundings) s' := by
  have hhash : ∃ hash, emailHashOf py email = .ok hash := by
    rcases hemail with rfl | ⟨text, rfl⟩
    · exact ⟨_, rfl⟩
    · exact ⟨_, rfl⟩
  obtain ⟨hash, hhash⟩ := hhash
  have hfind : s.carryOut surroundings (.findUser (.str sub)) = .ok (s, some row) := by
    simp only [Session.carryOut, textOf, hfound]
  rw [getOrCreateUser, Prog.bind_assoc, run_call_bind_calm hcalm _ _ hfind]
  by_cases hbackfill : (row.emailHash = "" && email.truthy) = true
  · simp only [hbackfill, if_true, hhash, Prog.ofExcept, Prog.done_bind, Prog.bind_assoc]
    rw [run_call_bind_calm hcalm (s.write (s.pending.setEmailHash row.id hash)) () rfl]
    exact ⟨s.write (s.pending.setEmailHash row.id hash), { row with emailHash := hash }, rfl, rfl, rfl⟩
  · simp only [hbackfill]
    exact ⟨s, row, rfl, rfl, rfl⟩

/-- A user with roles keeps them, and they are the roles of the current user. -/
theorem run_getCurrentUser_calm (py : Builtins) {d : Directory} {presented : Presented} {token sub : String} {user : CurrentUser}
    {row : UserRow} (htoken : presented.token = some token)
    (hverified : verified server token (surroundings.http .fetchJwks) = .ok user) (hsub : user.sub = .str sub)
    (hemail : user.email = .null ∨ ∃ text, user.email = .str text) (hfound : d.findUser sub = some row)
    (hrole : d.HasRole row.id) :
    ((getCurrentUser server py presented).run (Session.answer surroundings) d.session).2 =
      .ok ⟨.str sub, ((d.rolesOf row.id).map RoleRow.role).map .str, .null⟩ := by
  simp only [getCurrentUser, htoken]
  rw [run_verifyToken_bind_calm hcalm hverified, hsub]
  obtain ⟨s, row', hid, hroles, hrun⟩ := run_getOrCreateUser_bind_calm hcalm py d.session (fun dbUser => do
    seedRolesFromJwt dbUser user.roles
    awaitAccess .commit
    let dbRoles ← awaitAccess (.loadRoles dbUser.id)
    return (⟨.str sub, dbRoles.map .str, .null⟩ : CurrentUser)) hfound hemail
  rw [hrun]
  have hkept : s.pending.rolesOf row'.id = d.rolesOf row.id := by
    rw [Directory.rolesOf, hroles, hid]
    rfl
  have hhas : s.carryOut surroundings (.hasRole row'.id) = .ok (s, true) := by
    have hpending : s.pending.HasRole row'.id := by
      rw [Directory.HasRole, hkept]
      exact hrole
    simp only [Session.carryOut, hpending, decide_true]
  rw [seedRolesFromJwt, Prog.bind_assoc, run_call_bind_calm hcalm _ _ hhas]
  simp only [if_true, Prog.pure_eq, Prog.done_bind]
  rw [run_call_bind_calm hcalm { s with committed := s.pending } () rfl,
    run_call_bind_calm hcalm { s with committed := s.pending } ((s.pending.rolesOf row'.id).map RoleRow.role) rfl, hkept]
  rfl

/-- A key is looked up and checked. -/
theorem run_usableKey_calm (d : Directory) (rawKey : String) :
    ((usableKey rawKey).run (Session.answer surroundings) d.session).2 =
      validateRecord (d.apiKeys.find? fun row => row.hash = Python.sha256 (encodeUtf8 rawKey)) surroundings.time := by
  rw [usableKey, run_call_bind_calm hcalm d.session _ rfl, run_call_bind_calm hcalm d.session _ rfl]
  rw [Prog.run_ofExcept]
  rfl

end Calm

/-! ## Two requests of one subject -/

/-- What is let through by a check of permissions depends on the permissions only. -/
theorem map_withPermission {permission : Permission} {user₁ user₂ : CurrentUser}
    (h : permission ∈ permissionsFor user₁.roles ↔ permission ∈ permissionsFor user₂.roles) :
    (withPermission permission user₁).map (fun _ => ()) = (withPermission permission user₂).map fun _ => () := by
  by_cases hpermission : permission ∈ permissionsFor user₁.roles
  · simp [withPermission, hpermission, h.mp hpermission, Except.map]
  · simp [withPermission, hpermission, h.not.mp hpermission, Except.map]

/-- A check of permissions tells apart principals with and without one. -/
theorem map_withPermission_iff {permission : Permission} {user₁ user₂ : CurrentUser} :
    (withPermission permission user₁).map (fun _ => ()) = (withPermission permission user₂).map (fun _ => ()) ↔
      (permission ∈ permissionsFor user₁.roles ↔ permission ∈ permissionsFor user₂.roles) := by
  refine ⟨fun h => ?_, map_withPermission⟩
  by_cases h₁ : permission ∈ permissionsFor user₁.roles
  · by_cases h₂ : permission ∈ permissionsFor user₂.roles
    · exact ⟨fun _ => h₂, fun _ => h₁⟩
    · simp [withPermission, h₁, h₂, Except.map] at h
  · by_cases h₂ : permission ∈ permissionsFor user₂.roles
    · simp [withPermission, h₁, h₂, Except.map] at h
    · exact ⟨fun h' => absurd h' h₁, fun h' => absurd h' h₂⟩

namespace Visit

variable {visit : Visit} {sub : String} {user : CurrentUser}

/-- The stored roles of a subject. -/
def storedRoles (visit : Visit) (row : UserRow) : List Json :=
  ((visit.directory.rolesOf row.id).map RoleRow.role).map .str

theorem mem_storedRoles {row : UserRow} {role : Json} :
    role ∈ visit.storedRoles row ↔ ∃ name, role = .str name ∧ visit.directory.Holds row.id name := by
  simp only [storedRoles, List.mem_map, Directory.Holds]
  constructor
  · rintro ⟨name, ⟨stored, hstored, rfl⟩, rfl⟩
    exact ⟨_, rfl, stored, hstored, rfl⟩
  · rintro ⟨name, rfl, stored, hstored, rfl⟩
    exact ⟨_, ⟨stored, hstored, rfl⟩, rfl⟩

/-- Where the current user is asked for, the stored roles are checked. -/
theorem run_requirePermission (py : Builtins) (h : visit.Carries server sub user) {row : UserRow}
    (hfound : visit.directory.findUser sub = some row) (hrole : visit.directory.HasRole row.id) (permission : Permission) :
    ((requirePermission server py visit.presented permission).run (Session.answer visit.surroundings)
      visit.directory.session).2 = withPermission permission ⟨.str sub, visit.storedRoles row, .null⟩ := by
  obtain ⟨token, htoken, hverified⟩ := h.token
  have hcurrent := run_getCurrentUser_calm h.fault py htoken hverified h.sub h.email hfound hrole
  rw [requirePermission, Prog.run_bind_of_ok hcurrent, Prog.run_ofExcept]
  rfl

/-- A guard that resolves the current user decides by the stored roles. -/
theorem admission_permission (h : visit.Carries server sub user) {row : UserRow}
    (hfound : visit.directory.findUser sub = some row) (hrole : visit.directory.HasRole row.id) (permission : Permission) :
    visit.admission server py (.permission permission) =
      (withPermission permission ⟨.str sub, visit.storedRoles row, .null⟩).map fun _ => () := by
  have hrun := run_requirePermission py h hfound hrole permission
  simp only [admission, outcome, authorize, Prog.run_bind, hrun]
  cases withPermission permission ⟨.str sub, visit.storedRoles row, .null⟩ with
  | ok user => rfl
  | error error => rfl

/-- A guard that looks for a role as well. -/
theorem admission_permissionAndRole (h : visit.Carries server sub user) {row : UserRow}
    (hfound : visit.directory.findUser sub = some row) (hrole : visit.directory.HasRole row.id) (permission : Permission)
    (role : String) : visit.admission server py (.permissionAndRole permission role) =
      ((withPermission permission ⟨.str sub, visit.storedRoles row, .null⟩).bind (withRole role)).map fun _ => () := by
  have hrun := run_requirePermission py h hfound hrole permission
  simp only [admission, outcome, authorize, Prog.run_bind, hrun]
  cases withPermission permission ⟨.str sub, visit.storedRoles row, .null⟩ with
  | error error => rfl
  | ok user =>
    simp only [Prog.run_ofExcept, Except.bind]
    cases withRole role user with
    | ok user => rfl
    | error error => rfl

/-- A guard for services decides by the key. -/
theorem admission_scope (h : visit.Carries server sub user) (scope : String) :
    visit.admission server py (.scope scope) =
      match visit.presented.key with
      | none => .error (unauthorizedError "missing X-Fleet-Api-Key header")
      | some rawKey => ((validateRecord (visit.directory.apiKeys.find? fun row =>
          row.hash = Python.sha256 (encodeUtf8 rawKey)) visit.surroundings.time).bind (withScope scope)).map fun _ => () := by
  simp only [admission, outcome, authorize, requireScope, getCurrentServiceKey]
  cases visit.presented.key with
  | none => rfl
  | some rawKey =>
    simp only [Prog.run_bind, run_usableKey_calm h.fault]
    cases validateRecord (visit.directory.apiKeys.find? fun row => row.hash = Python.sha256 (encodeUtf8 rawKey))
        visit.surroundings.time with
    | error error => rfl
    | ok key =>
      simp only [Prog.run_ofExcept, Except.bind]
      cases withScope scope key with
      | ok key => rfl
      | error error => rfl

/-- A guard for users or services decides by the roles of the token. -/
theorem admission_userOrScope (h : visit.Carries server sub user) (permission : Permission) (scope : String) :
    visit.admission server py (.userOrScope permission scope) = (withPermission permission user).map fun _ => () := by
  obtain ⟨token, htoken, hverified⟩ := h.token
  simp only [admission, outcome, authorize, requireUserOrServiceScope, htoken]
  rw [run_verifyToken_bind_calm h.fault hverified]
  cases hpermission : withPermission permission user with
  | ok user => rfl
  | error error => rfl

end Visit

/-- Two requests with tokens of one subject, which has the same stored roles, come out the same way
exactly when the endpoint takes no user for a service, or the roles of both tokens, or of none, permit it. -/
theorem sameSubject_admission_iff {first second : Visit} {sub : String} {user₁ user₂ : CurrentUser} (endpoint : Endpoint)
    (h₁ : first.Carries server sub user₁) (h₂ : second.Carries server sub user₂) (h : SameSubject first second sub) :
    first.admission server py endpoint.guard = second.admission server py endpoint.guard ↔
      ∀ permission scope, endpoint.guard = .userOrScope permission scope →
        (permission ∈ permissionsFor user₁.roles ↔ permission ∈ permissionsFor user₂.roles) := by
  obtain ⟨name, row₁, hfound₁, hholds₁⟩ := h.stored
  obtain ⟨row₂, hfound₂, hholds₂⟩ := (h.roles name).mp ⟨row₁, hfound₁, hholds₁⟩
  have hrole₁ := Directory.hasRole_iff.mpr ⟨name, hholds₁⟩
  have hrole₂ := Directory.hasRole_iff.mpr ⟨name, hholds₂⟩
  have hsame : ∀ role, role ∈ first.storedRoles row₁ ↔ role ∈ second.storedRoles row₂ := by
    intro role
    have hroles := h.roles
    simp only [Directory.SubjectHolds, hfound₁, hfound₂, Option.some.injEq, exists_eq_left'] at hroles
    simp only [Visit.mem_storedRoles, hroles]
  have hpermitted : ∀ permission, permission ∈ permissionsFor (first.storedRoles row₁) ↔
      permission ∈ permissionsFor (second.storedRoles row₂) := by
    intro permission
    simp only [mem_permissionsFor, hsame]
  cases hguard : endpoint.guard with
  | anyone =>
    refine iff_of_true rfl ?_
    rintro permission scope ⟨⟩
  | permission permission =>
    refine iff_of_true ?_ (by rintro permission scope ⟨⟩)
    rw [Visit.admission_permission h₁ hfound₁ hrole₁, Visit.admission_permission h₂ hfound₂ hrole₂]
    exact map_withPermission (hpermitted permission)
  | permissionAndRole permission role =>
    refine iff_of_true ?_ (by rintro permission scope ⟨⟩)
    rw [Visit.admission_permissionAndRole h₁ hfound₁ hrole₁, Visit.admission_permissionAndRole h₂ hfound₂ hrole₂]
    have hany : (first.storedRoles row₁).any (fun found => found.eqStr role) =
        (second.storedRoles row₂).any fun found => found.eqStr role := by
      rw [Bool.eq_iff_iff, List.any_eq_true, List.any_eq_true]
      simp only [hsame]
    by_cases hpermission : permission ∈ permissionsFor (first.storedRoles row₁)
    · simp only [withPermission, hpermission, (hpermitted permission).mp hpermission, if_true, Except.bind, withRole, hany]
      split <;> rfl
    · simp only [withPermission, hpermission, (hpermitted permission).not.mp hpermission, if_false, Except.bind]
  | scope scope =>
    refine iff_of_true ?_ (by rintro permission scope ⟨⟩)
    rw [Visit.admission_scope h₁, Visit.admission_scope h₂, h.key, h.apiKeys, h.time]
  | userOrScope permission scope =>
    rw [Visit.admission_userOrScope h₁, Visit.admission_userOrScope h₂, map_withPermission_iff]
    simp

/-! ## Two tokens of one subject -/

/-- A server whose tokens are the roles that they claim, for one subject. -/
def claimingServer : Server where
  webOrigin := "http://localhost:3000"
  rateLimitPerMinute := 60
  jwtDecode token _ := .ok [("sub", .str "ayse"), ("realm_access", .obj [("roles", .arr [.str token])])]

/-- Nothing fails, and the key server has no keys. -/
def calmSurroundings : Surroundings where
  http
    | .fetchJwks => .ok (.obj [])
    | _ => .error ⟨.external, ""⟩
  time := 0
  fault _ := none

/-- The subject has the role `member`. -/
def memberDirectory : Directory :=
  (Directory.empty.insertUser "ayse" "" (by rfl)).insertRole 0 "member" none (by rfl)

/-- A visit with a token that claims a role. -/
def visitAs (role : String) : Visit := ⟨calmSurroundings, memberDirectory, ⟨some role, none⟩⟩

/-- The principal of such a token. -/
def claimedUser (role : String) : CurrentUser := ⟨.str "ayse", [.str role], .null⟩

theorem visitAs_member_carries : (visitAs "member").Carries claimingServer "ayse" (claimedUser "member") :=
  ⟨⟨"member", rfl, rfl⟩, rfl, .inl rfl, fun _ => rfl⟩

theorem visitAs_builder_carries : (visitAs "builder").Carries claimingServer "ayse" (claimedUser "builder") :=
  ⟨⟨"builder", rfl, rfl⟩, rfl, .inl rfl, fun _ => rfl⟩

theorem visitAs_sameSubject (role role' : String) : SameSubject (visitAs role) (visitAs role') "ayse" where
  roles _ := Iff.rfl
  stored := ⟨"member", ⟨0, "ayse", "", "ayse"⟩, rfl, ⟨0, 0, "member", none⟩, List.mem_singleton.mpr rfl, rfl⟩
  key := rfl
  apiKeys := rfl
  time := rfl

/-- At an endpoint for users the claimed roles make no difference. -/
theorem sameSubject_admission_iff_whoami :
    (visitAs "member").admission claimingServer lowerCase (.permission .chat) =
      (visitAs "builder").admission claimingServer lowerCase (.permission .chat) :=
  (sameSubject_admission_iff ⟨"whoami", "whoami", .permission .chat⟩ visitAs_member_carries visitAs_builder_carries
    (visitAs_sameSubject "member" "builder")).mpr (by rintro permission scope ⟨⟩)

/-- A run of the invoice agent is refused to one token and started for another. -/
theorem startRun_admission_differs : ¬ ∀ endpoint ∈ endpoints, ∀ (first second : Visit) (sub : String)
    (user₁ user₂ : CurrentUser), first.Carries claimingServer sub user₁ → second.Carries claimingServer sub user₂ →
      SameSubject first second sub → first.admission claimingServer lowerCase endpoint.guard =
        second.admission claimingServer lowerCase endpoint.guard := by
  intro h
  have hmem : (⟨"invoice_agent", "start_run", .userOrScope .manageAgents "invoice_intake"⟩ : Endpoint) ∈ endpoints := by
    simp [endpoints]
  have heq := h _ hmem _ _ _ _ _ visitAs_member_carries visitAs_builder_carries (visitAs_sameSubject "member" "builder")
  rw [Visit.admission_userOrScope visitAs_member_carries, Visit.admission_userOrScope visitAs_builder_carries,
    map_withPermission_iff] at heq
  exact absurd (heq.mpr (by decide)) (by decide)

end FleetWorkflow.Access
