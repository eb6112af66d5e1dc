import Mathlib.Data.List.Dedup
import FleetWorkflow.Access.Authority

/-!
# Roles that are taken away

A history of requests, among them the grants and removals of roles by admins, with the roles that
were removed and not granted again. The tables forget a removal as soon as a user has no role left:
the next token brings its roles back. A token that claims none of the removed ones does no harm.
-/

namespace FleetWorkflow.Access

open Python Async Api

/-! ## Managing roles -/

/-- `HTTPException(status_code=status, detail=detail)`. -/
def httpException (status : ℕ) (detail : String) : Exc := ⟨.http status, detail⟩

/-- `add_role(user_id, body)`. -/
def addRole (userId : ℕ) (role : String) (deptId : Option ℕ) : Accessing Unit := do
  if role ∉ rolePermissions.map Prod.fst then .raise (httpException 422 ("unknown role: " ++ role))
  else
    match ← awaitAccess (.getUser userId) with
    | none => .raise (httpException 404 "user not found")
    | some _ =>
      match ← awaitAccess (.findRole userId role deptId) with
      | some _ => .raise (httpException 409 "role already assigned")
      | none => do
        let row ← awaitAccess (.insertRole userId role deptId)
        awaitAccess .commit
        awaitAccess (.refresh row.id)

/-- `remove_role(user_id, role_id)`. -/
def removeRole (userId roleId : ℕ) : Accessing Unit := do
  match ← awaitAccess (.getRole roleId) with
  | none => .raise (httpException 404 "role not found")
  | some row =>
    if row.userId = userId then do
      awaitAccess (.deleteRole roleId)
      awaitAccess .commit
    else .raise (httpException 404 "role not found")

/-- What a request asks for; the handlers of other endpoints write neither users nor roles. -/
inductive Action where
  | addRole (userId : ℕ) (role : String) (deptId : Option ℕ)
  | removeRole (userId roleId : ℕ)
  | other (endpoint : Endpoint)

namespace Action

/-- Who may ask for it. -/
def guard : Action → Guard
  | addRole _ _ _ => .permission .managePlatform
  | removeRole _ _ => .permission .managePlatform
  | other endpoint => endpoint.guard

/-- What it does to the tables. -/
def handler : Action → Accessing Unit
  | addRole userId role deptId => Access.addRole userId role deptId
  | removeRole userId roleId => Access.removeRole userId roleId
  | other _ => return ()

end Action

/-- A request of a history. -/
structure Request where
  surroundings : Surroundings
  presented : Presented
  action : Action

namespace Request

variable (server : Server) (py : Builtins) (request : Request) (d : Directory)

/-- The request is let through or refused, which may write a user and its roles. -/
def entry : Session × Except Exc Principal :=
  (authorize server py request.presented request.action.guard).run (Session.answer request.surroundings) d.session

/-- The tables after the request. -/
def serve : Directory :=
  ((authorize server py request.presented request.action.guard >>= fun _ => request.action.handler).run
    (Session.answer request.surroundings) d.session).1.committed

end Request

/-! ## Histories -/

/-- A role can be what lets a request through a guard. -/
def Guard.GrantedBy (role : String) : Guard → Prop
  | anyone => False
  | permission asked => asked ∈ permissionsOf (.str role)
  | permissionAndRole asked required => asked ∈ permissionsOf (.str role) ∨ role = required
  | scope _ => False
  | userOrScope asked _ => asked ∈ permissionsOf (.str role)

/-- The tables with the roles that admins have removed from users and not granted again. -/
structure Roll where
  directory : Directory
  revoked : ℕ → String → Prop

namespace Roll

variable (server : Server) (py : Builtins)

/-- Nothing is removed yet. -/
def start (d : Directory) : Roll := ⟨d, fun _ _ => False⟩

/-- The user had the role before an action and an admin has removed the last row of it. -/
def Removed (action : Action) (before after : Directory) (userId : ℕ) (role : String) : Prop :=
  (∃ roleId, action = .removeRole userId roleId) ∧ before.Holds userId role ∧ ¬ after.Holds userId role

/-- An admin has granted the role to the user. -/
def Granted (action : Action) (after : Directory) (userId : ℕ) (role : String) : Prop :=
  (∃ deptId, action = .addRole userId role deptId) ∧ after.Holds userId role

/-- The roll after a request. -/
def step (roll : Roll) (request : Request) : Roll where
  directory := request.serve server py roll.directory
  revoked userId role :=
    Removed request.action (request.entry server py roll.directory).1.committed (request.serve server py roll.directory)
      userId role ∨
    (roll.revoked userId role ∧ ¬ Granted request.action (request.serve server py roll.directory) userId role)

/-- Something holds of every request of a history and the roll that it finds. -/
def Always (p : Roll → Request → Prop) : Roll → List Request → Prop
  | _, [] => True
  | roll, request :: rest => p roll request ∧ Always p (roll.step server py request) rest

/-- A request of a user is let through by a role. -/
def AuthorizedBy (roll : Roll) (request : Request) (sub role : String) : Prop :=
  ∃ user, (request.entry server py roll.directory).2 = .ok (.user user) ∧ user.sub = .str sub ∧
    .str role ∈ user.roles ∧ request.action.guard.GrantedBy role

/-- No request of a user is let through by a role that was removed from it. -/
def Final (roll : Roll) (request : Request) : Prop :=
  ∀ userId row role, roll.directory.users.row userId = some row → roll.revoked userId role →
    ¬ roll.AuthorizedBy server py request row.kcSub role

/-- The token of a request claims no role that was removed from its subject, unless the subject has
another role left where the current user is asked for, or the role does not permit what is asked for
where a user or a service is. -/
def Harmless (roll : Roll) (request : Request) : Prop :=
  ∀ token user sub row role, request.presented.token = some token →
    verified server token (request.surroundings.http .fetchJwks) = .ok user → user.sub = .str sub →
    roll.directory.findUser sub = some row → roll.revoked row.id role → .str role ∈ user.roles →
      match request.action.guard with
      | .permission _ => roll.directory.HasRole row.id
      | .permissionAndRole _ _ => roll.directory.HasRole row.id
      | .userOrScope permission _ => permission ∉ permissionsOf (.str role)
      | _ => True

end Roll

/-! ## What a request does to the tables -/

section Steps

variable {server : Server} {py : Builtins} {surroundings : Surroundings}

/-- The calls of a request are answered as its surroundings say. -/
def accessProtocol (surroundings : Surroundings) : Protocol AccessCall AccessCall.Reply Exc Session where
  allowed _ _ := True
  answers s c reply s' := s.answer surroundings c = (s', reply)

/-- What is ensured holds at the end of the run. -/
theorem ensures_run {α : Type} {p : Accessing α} {post : Except Exc α → Session → Prop} {s : Session}
    (h : (accessProtocol surroundings).Ensures post p s) :
    post (p.run (Session.answer surroundings) s).2 (p.run (Session.answer surroundings) s).1 :=
  (h.run id (fun _ => True) (fun _ _ _ _ => ⟨rfl, trivial⟩) trivial).1

/-- A call fails without an effect, or it is carried out. -/
theorem answer_cases {s s' : Session} {c : AccessCall} {reply : Except Exc c.Reply}
    (h : s.answer surroundings c = (s', reply)) :
    (s' = s ∧ ∃ error, reply = .error error) ∨ ∃ value, reply = .ok value ∧ s.carryOut surroundings c = .ok (s', value) := by
  rw [Session.answer] at h
  split at h
  · cases h
    exact .inl ⟨rfl, _, rfl⟩
  · split at h
    · rename_i hout
      cases h
      exact .inr ⟨_, rfl, hout⟩
    · cases h
      exact .inl ⟨rfl, _, rfl⟩

/-- The users of other tables are there, under the same subjects. -/
def UsersKept (d d' : Directory) : Prop :=
  ∀ id row, d.users.row id = some row → ∃ row', d'.users.row id = some row' ∧ row'.kcSub = row.kcSub

/-- The tables have a user of a subject, and otherwise the same users and roles as before. -/
structure Provisioned (d d' : Directory) (sub : String) (row : UserRow) : Prop where
  roles : d'.roles = d.roles
  users : UsersKept d d'
  row : ∃ found, d'.users.row row.id = some found ∧ found.kcSub = sub

/-- The roles of tables with the same rows. -/
theorem rolesOf_congr {d d' : Directory} (h : d'.roles = d.roles) (userId : ℕ) : d'.rolesOf userId = d.rolesOf userId := by
  rw [Directory.rolesOf, h]
  rfl

/-- Finding or adding the user of a subject commits nothing. -/
theorem ensures_getOrCreateUser (s : Session) (kcSub email : Json) :
    (accessProtocol surroundings).Ensures (fun result s' => s'.committed = s.committed ∧ ∀ row, result = .ok row →
      ∃ sub, kcSub = .str sub ∧ Provisioned s.pending s'.pending sub row) (getOrCreateUser py kcSub email) s := by
  apply Protocol.ensures_call_bind trivial
  intro reply s₁ hfind
  rcases answer_cases hfind with ⟨rfl, error, rfl⟩ | ⟨found, rfl, hout⟩
  · exact ⟨rfl, by rintro row ⟨⟩⟩
  obtain ⟨sub, rfl⟩ : ∃ sub, kcSub = .str sub := by
    cases kcSub with
    | str sub => exact ⟨sub, rfl⟩
    | _ => cases hout
  obtain ⟨rfl, rfl⟩ : s₁ = s ∧ found = s.pending.findUser sub := by
    cases hout
    exact ⟨rfl, rfl⟩
  cases hfound : s₁.pending.findUser sub with
  | some row =>
    have hrow := Directory.findUser_eq_some.mp hfound
    have hkept : Provisioned s₁.pending s₁.pending sub row :=
      ⟨rfl, fun id row' hrow' => ⟨row', hrow', rfl⟩, row, hrow⟩
    simp only [Protocol.after]
    split
    · apply Protocol.ensures_ofExcept_bind
      · intro error _
        exact ⟨rfl, by rintro row ⟨⟩⟩
      · intro hash _
        apply Protocol.ensures_call_bind trivial
        intro reply s₂ hset
        rcases answer_cases hset with ⟨rfl, error, rfl⟩ | ⟨value, rfl, hout⟩
        · exact ⟨rfl, by rintro row ⟨⟩⟩
        cases hout
        refine ⟨rfl, ?_⟩
        rintro row' ⟨⟩
        refine ⟨sub, rfl, rfl, ?_, ?_⟩
        · intro id old hold
          simp only [Session.write, Directory.setEmailHash, Store.Table.row_update]
          split
          · rename_i hid
            subst hid
            exact ⟨{ old with emailHash := hash }, by rw [hold]; rfl, rfl⟩
          · exact ⟨old, hold, rfl⟩
        · refine ⟨{ row with emailHash := hash }, ?_, hrow.2⟩
          simp [Session.write, Directory.setEmailHash, hrow.1]
    · refine ⟨rfl, ?_⟩
      rintro row' ⟨⟩
      exact ⟨sub, rfl, hkept⟩
  | none =>
    simp only [Protocol.after]
    apply Protocol.ensures_ofExcept_bind
    · intro error _
      exact ⟨rfl, by rintro row ⟨⟩⟩
    · intro hash _
      apply Protocol.ensures_call.mpr
      refine ⟨trivial, ?_⟩
      intro reply s₂ hinsert
      rcases answer_cases hinsert with ⟨rfl, error, rfl⟩ | ⟨value, rfl, hout⟩
      · exact ⟨rfl, by rintro row ⟨⟩⟩
      simp only [Session.carryOut, textOf, hfound, dite_true, Except.ok.injEq, Prod.mk.injEq] at hout
      obtain ⟨rfl, rfl⟩ := hout
      refine ⟨rfl, ?_⟩
      rintro row' ⟨⟩
      refine ⟨sub, rfl, rfl, ?_, ?_⟩
      · intro id old hold
        refine ⟨old, ?_, rfl⟩
        simp only [Session.write, Directory.insertUser, Store.Table.row_insert]
        rw [if_neg, hold]
        rintro rfl
        rw [Store.Table.row_next] at hold
        cases hold
      · exact ⟨_, by simp [Session.write, Directory.insertUser]; rfl, rfl⟩

/-- The roles after one more row. -/
theorem holds_insertRole {d : Directory} {userId : ℕ} {role : String} {deptId : Option ℕ}
    {huser : (d.users.row userId).isSome} {other : ℕ} {name : String}
    (h : (d.insertRole userId role deptId huser).Holds other name) :
    d.Holds other name ∨ (other = userId ∧ name = role) := by
  obtain ⟨id, row, hrow, rfl, rfl⟩ := Directory.holds_iff.mp h
  simp only [Directory.insertRole, Store.Table.row_insert] at hrow
  split at hrow
  · cases hrow
    exact .inr ⟨rfl, rfl⟩
  · exact .inl (Directory.holds_iff.mpr ⟨id, row, hrow, rfl, rfl⟩)

/-- The roles after more rows, and the same users. -/
theorem holds_insertRoles {userId : ℕ} {other : ℕ} {name : String} (roles : List String) (d : Directory)
    (h : (d.insertRoles userId roles).Holds other name) : d.Holds other name ∨ (other = userId ∧ name ∈ roles) := by
  induction roles generalizing d with
  | nil => exact .inl h
  | cons role rest ih =>
    rw [Directory.insertRoles] at h
    split at h
    · rcases ih _ h with hone | ⟨rfl, hrest⟩
      · rcases holds_insertRole hone with hold | ⟨rfl, rfl⟩
        · exact .inl hold
        · exact .inr ⟨rfl, List.mem_cons_self⟩
      · exact .inr ⟨rfl, List.mem_cons_of_mem _ hrest⟩
    · exact .inl h

theorem users_insertRoles (userId : ℕ) (roles : List String) (d : Directory) : (d.insertRoles userId roles).users = d.users := by
  induction roles generalizing d with
  | nil => rfl
  | cons role rest ih =>
    rw [Directory.insertRoles]
    split
    · exact ih _
    · rfl

/-- The texts of a list of values. -/
theorem mem_of_mapM_textOf {values : List Json} {texts : List String} (h : values.mapM textOf = some texts) {text : String}
    (hmem : text ∈ texts) : .str text ∈ values := by
  induction values generalizing texts with
  | nil =>
    cases h
    cases hmem
  | cons value rest ih =>
    cases value with
    | str first =>
      simp only [List.mapM_cons, textOf, Option.bind_eq_bind, Option.bind_some, Option.bind_eq_some_iff,
        Option.pure_def, Option.some.injEq] at h
      obtain ⟨others, hothers, rfl⟩ := h
      rcases List.mem_cons.mp hmem with rfl | hrest
      · exact List.mem_cons_self
      · exact List.mem_cons_of_mem _ (ih hothers hrest)
    | _ => simp [List.mapM_cons, textOf] at h

/-- The tables have a user of a subject, and that user has roles from a token if it had none. -/
structure Seeded (d d' : Directory) (sub : String) (userId : ℕ) (roles : List Json) : Prop where
  users : UsersKept d d'
  row : ∃ found, d'.users.row userId = some found ∧ found.kcSub = sub
  holds : ∀ other name, d'.Holds other name →
    d.Holds other name ∨ (other = userId ∧ ¬ d.HasRole userId ∧ .str name ∈ roles)

/-- Seeding commits nothing. -/
theorem ensures_seedRolesFromJwt (d : Directory) (s : Session) (sub : String) (user : UserRow) (jwtRoles : List Json)
    (hprovisioned : Provisioned d s.pending sub user) :
    (accessProtocol surroundings).Ensures (fun result s' => s'.committed = s.committed ∧
      (result = .ok () → Seeded d s'.pending sub user.id jwtRoles)) (seedRolesFromJwt user jwtRoles) s := by
  have hroles : ∀ other, s.pending.rolesOf other = d.rolesOf other := rolesOf_congr hprovisioned.roles
  have hholds : ∀ other name, s.pending.Holds other name ↔ d.Holds other name := by
    intro other name
    rw [Directory.Holds, hroles]
    rfl
  apply Protocol.ensures_call_bind trivial
  intro reply s₁ hhas
  rcases answer_cases hhas with ⟨rfl, error, rfl⟩ | ⟨found, rfl, hout⟩
  · exact ⟨rfl, by rintro ⟨⟩⟩
  cases hout
  simp only [Protocol.after]
  split
  · exact ⟨rfl, fun _ => ⟨hprovisioned.users, hprovisioned.row, fun other name h => .inl ((hholds other name).mp h)⟩⟩
  · rename_i hnone
    have hfree : ¬ d.HasRole user.id := by
      intro hrole
      apply hnone
      rw [Directory.HasRole, ← hroles] at hrole
      exact decide_eq_true hrole
    apply Protocol.ensures_call.mpr
    refine ⟨trivial, ?_⟩
    intro reply s₂ hinsert
    rcases answer_cases hinsert with ⟨rfl, error, rfl⟩ | ⟨value, rfl, hout⟩
    · exact ⟨rfl, by rintro ⟨⟩⟩
    simp only [Session.carryOut] at hout
    split at hout
    · rename_i texts htexts
      split at hout
      · cases hout
        refine ⟨rfl, fun _ => ⟨?_, ?_, ?_⟩⟩
        · intro id row hrow
          simp only [Session.write, users_insertRoles]
          exact hprovisioned.users id row hrow
        · simp only [Session.write, users_insertRoles]
          exact hprovisioned.row
        · intro other name h
          rcases holds_insertRoles _ _ h with hold | ⟨rfl, hname⟩
          · exact .inl ((hholds other name).mp hold)
          · exact .inr ⟨rfl, hfree, mem_of_mapM_textOf htexts (List.mem_dedup.mp hname)⟩
      · cases hout
    · cases hout

/-- What resolving the current user does: nothing is committed and it is refused, or the user is there
with roles, which are the ones that decide. -/
inductive Resolution (d : Directory) (jwtUser : CurrentUser) : Except Exc CurrentUser → Session → Prop where
  | refused {error : Exc} {s : Session} (committed : s.committed = d) : Resolution d jwtUser (.error error) s
  | resolved {result : Except Exc CurrentUser} {s : Session} (sub : String) (userId : ℕ) (sub_eq : jwtUser.sub = .str sub)
      (seeded : Seeded d s.committed sub userId jwtUser.roles) (pending : s.pending = s.committed)
      (returned : ∀ user, result = .ok user → user.sub = .str sub ∧
        ∀ role, .str role ∈ user.roles → s.committed.Holds userId role) : Resolution d jwtUser result s

/-- The current user of a request. -/
theorem ensures_getCurrentUser (d : Directory) (presented : Presented) :
    (accessProtocol surroundings).Ensures (fun result s' =>
      ((∃ error, result = .error error) ∧ s'.committed = d) ∨ ∃ token jwtUser, presented.token = some token ∧
        verified server token (surroundings.http .fetchJwks) = .ok jwtUser ∧ Resolution d jwtUser result s')
      (getCurrentUser server py presented) d.session := by
  simp only [getCurrentUser]
  cases htoken : presented.token with
  | none => exact .inl ⟨⟨_, rfl⟩, rfl⟩
  | some token =>
  dsimp only
  rw [verifyToken_eq]
  refine ⟨trivial, fun reply s₀ hjwks => ?_⟩
  have hreply : s₀ = d.session ∧ ∀ jwtUser, verified server token reply = .ok jwtUser →
      verified server token (surroundings.http .fetchJwks) = .ok jwtUser := by
    rcases answer_cases hjwks with ⟨rfl, error, rfl⟩ | ⟨value, rfl, hout⟩
    · refine ⟨rfl, ?_⟩
      rintro jwtUser ⟨⟩
    · simp only [Session.carryOut] at hout
      cases hhttp : surroundings.http .fetchJwks with
      | error error =>
        rw [hhttp] at hout
        cases hout
      | ok jwks =>
        rw [hhttp] at hout
        cases hout
        exact ⟨rfl, fun _ h => h⟩
  obtain ⟨rfl, hverified⟩ := hreply
  apply Protocol.ensures_ofExcept_bind
  · intro error _
    exact .inl ⟨⟨error, rfl⟩, rfl⟩
  intro jwtUser hjwtUser
  refine Protocol.Ensures.mono (?_ : (accessProtocol surroundings).Ensures (Resolution d jwtUser) _ _)
    fun result s' h => .inr ⟨token, jwtUser, rfl, hverified jwtUser hjwtUser, h⟩
  apply Protocol.ensures_bind.mpr
  apply (ensures_getOrCreateUser d.session jwtUser.sub jwtUser.email).mono
  rintro (error | row) s₁ ⟨hcommitted₁, hrow⟩
  · exact .refused hcommitted₁
  obtain ⟨sub, hsub, hprovisioned⟩ := hrow row rfl
  apply Protocol.ensures_bind.mpr
  apply (ensures_seedRolesFromJwt d s₁ sub row jwtUser.roles hprovisioned).mono
  rintro (error | ⟨⟨⟩⟩) s₂ ⟨hcommitted₂, hseeded⟩
  · exact .refused (hcommitted₂.trans hcommitted₁)
  apply Protocol.ensures_call_bind trivial
  intro reply s₃ hcommit
  rcases answer_cases hcommit with ⟨rfl, error, rfl⟩ | ⟨value, rfl, hout⟩
  · exact .refused (hcommitted₂.trans hcommitted₁)
  cases hout
  apply Protocol.ensures_call_bind trivial
  intro reply s₄ hload
  rcases answer_cases hload with ⟨rfl, error, rfl⟩ | ⟨value, rfl, hout⟩
  · exact .resolved sub row.id hsub (hseeded rfl) rfl (by rintro user ⟨⟩)
  cases hout
  refine .resolved sub row.id hsub (hseeded rfl) rfl ?_
  rintro user ⟨⟩
  refine ⟨hsub, fun role hrole => ?_⟩
  obtain ⟨name, hname, heq⟩ := List.mem_map.mp hrole
  cases heq
  obtain ⟨stored, hstored, rfl⟩ := List.mem_map.mp hname
  exact ⟨stored, hstored, rfl⟩

/-- A guard asks for the current user. -/
def Guard.AsksUser : Guard → Prop
  | permission _ => True
  | permissionAndRole _ _ => True
  | _ => False

/-- What a guard does: it refuses and commits nothing; it lets a request through and reads only, and the
user is then that of a token; or it resolves the current user. -/
inductive Admission (server : Server) (surroundings : Surroundings) (d : Directory) (presented : Presented) (guard : Guard) :
    Except Exc Principal → Session → Prop where
  | refused {error : Exc} {s : Session} (committed : s.committed = d) :
      Admission server surroundings d presented guard (.error error) s
  | plain {principal : Principal} (claimed : ∀ user, principal = .user user → ∃ permission scope token,
      guard = .userOrScope permission scope ∧ presented.token = some token ∧
        verified server token (surroundings.http .fetchJwks) = .ok user) :
      Admission server surroundings d presented guard (.ok principal) d.session
  | resolved {result : Except Exc Principal} {s : Session} (asks : guard.AsksUser) (token : String)
      (jwtUser : CurrentUser) (sub : String) (userId : ℕ) (token_eq : presented.token = some token)
      (verified_eq : verified server token (surroundings.http .fetchJwks) = .ok jwtUser) (sub_eq : jwtUser.sub = .str sub)
      (seeded : Seeded d s.committed sub userId jwtUser.roles) (pending : s.pending = s.committed)
      (returned : ∀ principal, result = .ok principal → ∃ user, principal = .user user ∧ user.sub = .str sub ∧
        ∀ role, .str role ∈ user.roles → s.committed.Holds userId role) :
      Admission server surroundings d presented guard result s

/-- A guard that asks for the current user and checks it. -/
theorem ensures_checkedUser (d : Directory) (presented : Presented) {guard : Guard} (hasks : guard.AsksUser)
    (check : CurrentUser → Except Exc CurrentUser) (hcheck : ∀ user user', check user = .ok user' → user' = user) :
    (accessProtocol surroundings).Ensures (Admission server surroundings d presented guard)
      (getCurrentUser server py presented >>= fun user =>
        (Prog.ofExcept (check user) : Accessing CurrentUser) >>= fun user => pure (.user user)) d.session := by
  apply Protocol.ensures_bind.mpr
  apply (ensures_getCurrentUser d presented).mono
  rintro result s (⟨⟨error, rfl⟩, hcommitted⟩ | ⟨token, jwtUser, htoken, hverified, hresolution⟩)
  · exact .refused hcommitted
  cases hresolution with
  | refused hcommitted => exact .refused hcommitted
  | resolved sub userId hsub hseeded hpending hreturned =>
    cases result with
    | error error =>
      exact .resolved hasks token jwtUser sub userId htoken hverified hsub hseeded hpending (by rintro principal ⟨⟩)
    | ok user =>
      apply Protocol.ensures_ofExcept_bind
      · intro error _
        exact .resolved hasks token jwtUser sub userId htoken hverified hsub hseeded hpending (by rintro principal ⟨⟩)
      · intro user' huser'
        obtain rfl := hcheck user user' huser'
        refine .resolved hasks token jwtUser sub userId htoken hverified hsub hseeded hpending ?_
        rintro principal ⟨⟩
        exact ⟨user', rfl, hreturned user' rfl⟩

theorem withPermission_eq_ok {permission : Permission} {user user' : CurrentUser}
    (h : withPermission permission user = .ok user') : user' = user := by
  rw [withPermission] at h
  split at h
  · cases h
    rfl
  · cases h

theorem withRole_eq_ok {role : String} {user user' : CurrentUser} (h : withRole role user = .ok user') : user' = user := by
  rw [withRole] at h
  split at h
  · cases h
    rfl
  · cases h

/-- Looking a key up reads only. -/
theorem ensures_usableKey (s : Session) (rawKey : String) :
    (accessProtocol surroundings).Ensures (fun _ s' => s' = s) (usableKey rawKey) s := by
  apply Protocol.ensures_call_bind trivial
  intro reply s₁ hfind
  rcases answer_cases hfind with ⟨rfl, error, rfl⟩ | ⟨value, rfl, hout⟩
  · rfl
  cases hout
  apply Protocol.ensures_call_bind trivial
  intro reply s₂ hnow
  rcases answer_cases hnow with ⟨rfl, error, rfl⟩ | ⟨value, rfl, hout⟩
  · rfl
  cases hout
  exact Protocol.ensures_ofExcept.mpr rfl

/-- A key that is looked up and checked for a scope. -/
theorem ensures_scopedKey (d : Directory) (presented : Presented) (guard : Guard) (rawKey scope : String) :
    (accessProtocol surroundings).Ensures (Admission server surroundings d presented guard)
      (usableKey rawKey >>= fun key =>
        (Prog.ofExcept (withScope scope key) : Accessing ApiKeyRow) >>= fun key => pure (.service key)) d.session := by
  apply Protocol.ensures_bind.mpr
  apply (ensures_usableKey d.session rawKey).mono
  rintro (error | key) s rfl
  · exact .refused rfl
  apply Protocol.ensures_ofExcept_bind
  · intro error _
    exact .refused rfl
  · intro key' _
    exact .plain (by rintro user ⟨⟩)

/-- Every guard. -/
theorem ensures_authorize (d : Directory) (presented : Presented) (guard : Guard) :
    (accessProtocol surroundings).Ensures (Admission server surroundings d presented guard)
      (authorize server py presented guard) d.session := by
  cases guard with
  | anyone => exact .plain (by rintro user ⟨⟩)
  | permission permission =>
    simp only [authorize, requirePermission, Prog.bind_assoc]
    have hasks : (Guard.permission permission).AsksUser := trivial
    exact ensures_checkedUser d presented hasks _ fun _ _ => withPermission_eq_ok
  | permissionAndRole permission role =>
    have hboth : authorize server py presented (.permissionAndRole permission role) =
        getCurrentUser server py presented >>= fun user =>
          (Prog.ofExcept ((withPermission permission user).bind (withRole role)) : Accessing CurrentUser) >>= fun user =>
            pure (.user user) := by
      simp only [authorize, requirePermission, Prog.bind_assoc]
      congr 1
      funext user
      cases withPermission permission user with
      | ok user => rfl
      | error error => rfl
    have hasks : (Guard.permissionAndRole permission role).AsksUser := trivial
    rw [hboth]
    apply ensures_checkedUser d presented hasks
    intro user user' h
    cases hpermission : withPermission permission user with
    | error error =>
      rw [hpermission] at h
      cases h
    | ok checked =>
      rw [hpermission] at h
      rw [withRole_eq_ok h, withPermission_eq_ok hpermission]
  | scope scope =>
    simp only [authorize, requireScope, getCurrentServiceKey]
    cases presented.key with
    | none => exact .refused rfl
    | some rawKey =>
      simp only [Prog.bind_assoc]
      exact ensures_scopedKey d presented _ rawKey scope
  | userOrScope permission scope =>
    simp only [authorize, requireUserOrServiceScope]
    cases htoken : presented.token with
    | none =>
      dsimp only
      cases presented.key with
      | none => exact .refused rfl
      | some rawKey => exact ensures_scopedKey d presented _ rawKey scope
    | some token =>
      dsimp only
      rw [verifyToken_eq]
      refine ⟨trivial, fun reply s hjwks => ?_⟩
      rcases answer_cases hjwks with ⟨rfl, error, rfl⟩ | ⟨value, rfl, hout⟩
      · exact .refused rfl
      simp only [Session.carryOut] at hout
      cases hhttp : surroundings.http .fetchJwks with
      | error error =>
        rw [hhttp] at hout
        cases hout
      | ok jwks =>
        rw [hhttp] at hout
        cases hout
        apply Protocol.ensures_ofExcept_bind
        · intro error _
          exact .refused rfl
        intro user huser
        apply Protocol.ensures_ofExcept_bind
        · intro error _
          exact .refused rfl
        intro user' huser'
        obtain rfl := withPermission_eq_ok huser'
        refine .plain ?_
        rintro user ⟨⟩
        exact ⟨permission, scope, token, rfl, htoken, by rw [hhttp]; exact huser⟩

/-- Removing a row takes roles away only. -/
theorem holds_deleteRole {d : Directory} {roleId userId : ℕ} {role : String} (h : (d.deleteRole roleId).Holds userId role) :
    d.Holds userId role := by
  obtain ⟨id, row, hrow, huser, hrole⟩ := Directory.holds_iff.mp h
  simp only [Directory.deleteRole, Store.Table.row_delete] at hrow
  split at hrow
  · cases hrow
  · exact Directory.holds_iff.mpr ⟨id, row, hrow, huser, hrole⟩

/-- A handler keeps the users, and gives a user a role only by granting it. -/
structure Handled (action : Action) (before after : Directory) : Prop where
  users : after.users = before.users
  holds : ∀ userId role, after.Holds userId role →
    before.Holds userId role ∨ ∃ deptId, action = .addRole userId role deptId

theorem Handled.refl (action : Action) (d : Directory) : Handled action d d := ⟨rfl, fun _ _ h => .inl h⟩

/-- What the handlers do to the tables. -/
theorem ensures_handler (action : Action) {s : Session} (hpending : action.guard.AsksUser → s.pending = s.committed) :
    (accessProtocol surroundings).Ensures (fun _ s' => Handled action s.committed s'.committed) action.handler s := by
  cases action with
  | other endpoint => exact .refl _ _
  | addRole userId role deptId =>
    have hsame := hpending trivial
    simp only [Action.handler, addRole]
    split
    · exact .refl _ _
    apply Protocol.ensures_call_bind trivial
    intro reply s₁ huser
    rcases answer_cases huser with ⟨rfl, error, rfl⟩ | ⟨found, rfl, hout⟩
    · exact .refl _ _
    cases hout
    cases hfound : s.pending.users.row userId with
    | none => exact .refl _ _
    | some row =>
    apply Protocol.ensures_call_bind trivial
    intro reply s₂ hrole
    rcases answer_cases hrole with ⟨rfl, error, rfl⟩ | ⟨existing, rfl, hout⟩
    · exact .refl _ _
    obtain rfl : s₂ = s := by
      simp only [Session.carryOut] at hout
      split at hout <;> cases hout <;> rfl
    cases existing with
    | some row => exact .refl _ _
    | none =>
    apply Protocol.ensures_call_bind trivial
    intro reply s₃ hinsert
    rcases answer_cases hinsert with ⟨rfl, error, rfl⟩ | ⟨row, rfl, hout⟩
    · exact .refl _ _
    have hisSome : (s₂.pending.users.row userId).isSome := by
      rw [hfound]
      rfl
    simp only [Session.carryOut, hisSome, dite_true, Except.ok.injEq, Prod.mk.injEq] at hout
    obtain ⟨rfl, rfl⟩ := hout
    have hgranted : Handled (.addRole userId role deptId) s₂.committed
        (s₂.pending.insertRole userId role deptId hisSome) := by
      refine ⟨by rw [← hsame]; rfl, fun other name h => ?_⟩
      rcases holds_insertRole h with hold | ⟨rfl, rfl⟩
      · exact .inl (hsame ▸ hold)
      · exact .inr ⟨deptId, rfl⟩
    apply Protocol.ensures_call_bind trivial
    intro reply s₄ hcommit
    rcases answer_cases hcommit with ⟨rfl, error, rfl⟩ | ⟨value, rfl, hout⟩
    · exact .refl _ _
    cases hout
    apply Protocol.ensures_call.mpr
    refine ⟨trivial, ?_⟩
    intro reply s₅ hrefresh
    rcases answer_cases hrefresh with ⟨rfl, error, rfl⟩ | ⟨value, rfl, hout⟩
    · exact hgranted
    · cases hout
      exact hgranted
  | removeRole userId roleId =>
    have hsame := hpending trivial
    simp only [Action.handler, removeRole]
    apply Protocol.ensures_call_bind trivial
    intro reply s₁ hrole
    rcases answer_cases hrole with ⟨rfl, error, rfl⟩ | ⟨found, rfl, hout⟩
    · exact .refl _ _
    cases hout
    cases hfound : s.pending.roles.row roleId with
    | none => exact .refl _ _
    | some row =>
    simp only [Protocol.after]
    split
    · apply Protocol.ensures_call_bind trivial
      intro reply s₂ hdelete
      rcases answer_cases hdelete with ⟨rfl, error, rfl⟩ | ⟨value, rfl, hout⟩
      · exact .refl _ _
      cases hout
      apply Protocol.ensures_call.mpr
      refine ⟨trivial, ?_⟩
      intro reply s₃ hcommit
      rcases answer_cases hcommit with ⟨rfl, error, rfl⟩ | ⟨value, rfl, hout⟩
      · exact .refl _ _
      cases hout
      exact ⟨by rw [← hsame]; rfl, fun other name h => .inl (hsame ▸ holds_deleteRole h)⟩
    · exact .refl _ _

end Steps

/-! ## Every history -/

namespace Roll

variable {server : Server} {py : Builtins} {roll : Roll} {request : Request}

/-- Who lost a role is a user and does not have it. -/
def Kept (roll : Roll) : Prop :=
  ∀ userId role, roll.revoked userId role → (roll.directory.users.row userId).isSome ∧ ¬ roll.directory.Holds userId role

/-- What letting a request through does. -/
theorem admission (server : Server) (py : Builtins) (roll : Roll) (request : Request) :
    Admission server request.surroundings roll.directory request.presented request.action.guard
      (request.entry server py roll.directory).2 (request.entry server py roll.directory).1 :=
  ensures_run (ensures_authorize roll.directory request.presented request.action.guard)

/-- The user of a subject is one and the same. -/
theorem userId_unique {d d' : Directory} (hkept : UsersKept d d') {userId other : ℕ} {row : UserRow} {sub : String}
    (hrow : d.users.row userId = some row) (hsub : row.kcSub = sub)
    (hother : ∃ found, d'.users.row other = some found ∧ found.kcSub = sub) : other = userId := by
  obtain ⟨row', hrow', hsub'⟩ := hkept userId row hrow
  obtain ⟨found, hfound, hfoundSub⟩ := hother
  exact d'.kcSub_unique _ _ _ _ hfound hrow' (hfoundSub.trans (hsub.symm.trans hsub'.symm))

/-- A harmless request gives nobody a role back before its handler runs. -/
theorem not_holds_entry (py : Builtins) (hkept : roll.Kept) (hharmless : roll.Harmless server request) {userId : ℕ} {role : String}
    (hrevoked : roll.revoked userId role) :
    ((request.entry server py roll.directory).1.committed.users.row userId).isSome ∧
      ¬ (request.entry server py roll.directory).1.committed.Holds userId role := by
  obtain ⟨huser, hnot⟩ := hkept userId role hrevoked
  have hadmission := roll.admission server py request
  generalize request.entry server py roll.directory = out at hadmission
  obtain ⟨s, result⟩ := out
  dsimp only at hadmission ⊢
  cases hadmission with
  | refused hcommitted =>
    rw [hcommitted]
    exact ⟨huser, hnot⟩
  | plain _ => exact ⟨huser, hnot⟩
  | resolved hasks token jwtUser sub other htoken hverified hsub hseeded hpending hreturned =>
    obtain ⟨row, hrow⟩ := Option.isSome_iff_exists.mp huser
    obtain ⟨row', hrow', hrowSub⟩ := hseeded.users userId row hrow
    refine ⟨by rw [hrow']; rfl, fun hholds => ?_⟩
    rcases hseeded.holds userId role hholds with hold | ⟨rfl, hfree, hclaimed⟩
    · exact hnot hold
    · obtain ⟨found, hfound, hfoundSub⟩ := hseeded.row
      rw [hrow'] at hfound
      cases hfound
      have hid := roll.directory.users.keyed userId row hrow
      have hfind : roll.directory.findUser sub = some row := by
        rw [Directory.findUser_eq_some, hid]
        exact ⟨hrow, hrowSub.symm.trans hfoundSub⟩
      have hguard := hharmless token jwtUser sub row role htoken hverified hsub hfind (hid ▸ hrevoked) hclaimed
      rw [hid] at hguard
      cases hcase : request.action.guard with
      | permission permission =>
        rw [hcase] at hguard
        exact hfree hguard
      | permissionAndRole permission role =>
        rw [hcase] at hguard
        exact hfree hguard
      | _ =>
        rw [hcase] at hasks
        exact hasks

/-- The handler runs on what letting the request through has committed. -/
theorem handled_serve (server : Server) (py : Builtins) (roll : Roll) (request : Request) :
    Handled request.action (request.entry server py roll.directory).1.committed (request.serve server py roll.directory) := by
  have hadmission := roll.admission server py request
  rw [Request.serve, Prog.run_bind]
  rw [Request.entry] at hadmission ⊢
  generalize (authorize server py request.presented request.action.guard).run (Session.answer request.surroundings)
    roll.directory.session = out at hadmission ⊢
  obtain ⟨s, result⟩ := out
  cases result with
  | error error => exact .refl _ _
  | ok principal =>
    have hpending : request.action.guard.AsksUser → s.pending = s.committed := by
      intro hasks
      cases hadmission with
      | plain _ => rfl
      | resolved _ _ _ _ _ _ _ _ _ hpending _ => exact hpending
    exact ensures_run (ensures_handler request.action hpending)

/-- A harmless request gives nobody a removed role back. -/
theorem Kept.step (hkept : roll.Kept) (hharmless : roll.Harmless server request) :
    (roll.step server py request).Kept := by
  have hhandled := roll.handled_serve server py request
  intro userId role hrevoked
  simp only [Roll.step] at hrevoked ⊢
  rw [hhandled.users]
  rcases hrevoked with ⟨-, hbefore, hafter⟩ | ⟨hrevoked, hnotGranted⟩
  · exact ⟨hbefore.isSome_row, hafter⟩
  · obtain ⟨huser, hnot⟩ := not_holds_entry py hkept hharmless hrevoked
    refine ⟨huser, fun hholds => ?_⟩
    rcases hhandled.holds userId role hholds with hold | hgranted
    · exact hnot hold
    · exact hnotGranted ⟨hgranted, hholds⟩

/-- A harmless request is let through by no removed role. -/
theorem Kept.final (hkept : roll.Kept) (hharmless : roll.Harmless server request) : roll.Final server py request := by
  rintro userId row role hrow hrevoked ⟨user, hresult, hsub, hmem, hgranted⟩
  have hid := roll.directory.users.keyed userId row hrow
  obtain ⟨-, hnot⟩ := not_holds_entry py hkept hharmless hrevoked
  have hadmission := roll.admission server py request
  generalize request.entry server py roll.directory = out at hadmission hresult hnot
  obtain ⟨s, result⟩ := out
  dsimp only at hadmission hresult hnot
  subst hresult
  cases hadmission with
  | plain hclaimed =>
    obtain ⟨permission, scope, token, hguard, htoken, hverified⟩ := hclaimed user rfl
    have hfind : roll.directory.findUser row.kcSub = some row := by
      rw [Directory.findUser_eq_some, hid]
      exact ⟨hrow, rfl⟩
    have hharm := hharmless token user row.kcSub row role htoken hverified hsub hfind (hid ▸ hrevoked) hmem
    rw [hguard] at hharm hgranted
    exact hharm hgranted
  | resolved hasks token jwtUser sub other htoken hverified hjwtSub hseeded hpending hreturned =>
    obtain ⟨user', heq, hsub', hholds⟩ := hreturned _ rfl
    cases heq
    have hsame : sub = row.kcSub := by
      have hboth := hsub'.symm.trans hsub
      cases hboth
      rfl
    obtain rfl := userId_unique hseeded.users hrow hsame.symm hseeded.row
    exact hnot (hholds role hmem)

/-- In every history of harmless requests from any tables, no request of a user is let through by a role
that an admin has removed from it and not granted again. -/
theorem always_final_of_harmless (server : Server) (py : Builtins) (d : Directory) (requests : List Request)
    (h : (start d).Always server py (fun roll request => roll.Harmless server request) requests) :
    (start d).Always server py (fun roll request => roll.Final server py request) requests := by
  have hkept : (start d).Kept := by
    intro userId role hrevoked
    exact hrevoked.elim
  generalize start d = roll at h hkept
  induction requests generalizing roll with
  | nil => trivial
  | cons request rest ih => exact ⟨hkept.final h.1, ih _ h.2 (hkept.step h.1)⟩

end Roll

/-! ## A role that comes back -/

/-- A server whose tokens are those of an admin, or of a user with the role that the token is. -/
def officeServer : Server where
  webOrigin := "http://localhost:3000"
  rateLimitPerMinute := 60
  jwtDecode token _ :=
    if token = "admin" then
      .ok [("sub", .str "admin"), ("realm_access", .obj [("roles", .arr [.str "platform_admin"])])]
    else .ok [("sub", .str "ayse"), ("realm_access", .obj [("roles", .arr [.str token])])]

/-- A builder and an admin. -/
def officeDirectory : Directory :=
  ((((Directory.empty.insertUser "ayse" "" (Directory.findUser_empty "ayse")).insertUser "admin" "" (by rfl)).insertRole 0 "builder" none
    (by rfl)).insertRole 1 "platform_admin" none (by rfl))

/-- The admin removes the builder's only role. -/
def removal : Request := ⟨calmSurroundings, ⟨some "admin", none⟩, .removeRole 0 0⟩

/-- The builder lists the agents with a token that claims a role. -/
def listAgentsAs (role : String) : Request :=
  ⟨calmSurroundings, ⟨some role, none⟩, .other ⟨"agents_admin", "list_agents", .permission .manageAgents⟩⟩

/-- The removed role is one of the first user. -/
theorem removed_removal {userId : ℕ} {role : String}
    (h : ((Roll.start officeDirectory).step officeServer lowerCase removal).revoked userId role) : role = "builder" := by
  rcases h with ⟨-, hbefore, hafter⟩ | ⟨hnever, -⟩
  · obtain ⟨row, hrow, rfl⟩ := hbefore
    have hrows : (removal.entry officeServer lowerCase officeDirectory).1.committed.roles.rows =
        [⟨0, 0, "builder", none⟩, ⟨1, 1, "platform_admin", none⟩] := rfl
    have hrow' : row ∈ [(⟨0, 0, "builder", none⟩ : RoleRow), ⟨1, 1, "platform_admin", none⟩] :=
      hrows ▸ (List.mem_filter.mp hrow).1
    have huser : row.userId = userId := by simpa using (List.mem_filter.mp hrow).2
    rcases List.mem_cons.mp hrow' with rfl | hadmin
    · rfl
    · obtain rfl := List.mem_singleton.mp hadmin
      subst huser
      exact absurd ⟨_, List.mem_singleton.mpr rfl, rfl⟩ hafter
  · exact hnever.elim

/-- A removal, and then a request with a token that claims another role. -/
theorem always_final_member :
    (Roll.start officeDirectory).Always officeServer lowerCase (fun roll request => roll.Final officeServer lowerCase request)
      [removal, listAgentsAs "member"] := by
  apply Roll.always_final_of_harmless
  refine ⟨?_, ?_, trivial⟩
  · intro token user sub row role _ _ _ _ hrevoked
    exact hrevoked.elim
  · intro token user sub row role htoken hverified _ _ hrevoked hclaimed
    obtain rfl := removed_removal hrevoked
    cases htoken
    cases hverified
    exact absurd (List.mem_singleton.mp hclaimed) (by simp)

/-- The token brings the only role of a user back after it was removed. -/
theorem removal_not_final : ¬ ∀ requests, (Roll.start officeDirectory).Always officeServer lowerCase
    (fun roll request => roll.Final officeServer lowerCase request) requests := by
  intro h
  have hfinal := (h [removal, listAgentsAs "builder"]).2.1
  apply hfinal 0 ⟨0, "ayse", "", "ayse"⟩ "builder" rfl
  · left
    refine ⟨⟨0, rfl⟩, ?_, ?_⟩
    · exact ⟨⟨0, 0, "builder", none⟩, List.mem_singleton.mpr rfl, rfl⟩
    · rintro ⟨row, hrow, -⟩
      cases (show row ∈ ([] : List RoleRow) from hrow)
  · refine ⟨⟨.str "ayse", [.str "builder"], .null⟩, rfl, rfl, List.mem_singleton.mpr rfl, ?_⟩
    show Permission.manageAgents ∈ permissionsOf (.str "builder")
    decide

end FleetWorkflow.Access
