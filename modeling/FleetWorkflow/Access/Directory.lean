import FleetWorkflow.Api.Middleware
import FleetWorkflow.Store.Table

/-!
# The directory of users, roles and keys

The tables that decide who may do what, the calls that authorization makes to them, and a database
session that answers these calls. What is written is seen by the session at once and by others when
it is committed; a request that ends without a commit leaves nothing behind.
-/

namespace FleetWorkflow.Access

open Python Async Store Api

/-- A row of `users`. -/
structure UserRow where
  id : ℕ
  kcSub : String
  emailHash : String
  displayName : String

/-- A row of `roles`. -/
structure RoleRow where
  id : ℕ
  userId : ℕ
  role : String
  deptId : Option ℕ
deriving DecidableEq

/-- A row of `api_keys`. -/
structure ApiKeyRow where
  id : ℕ
  name : String
  hash : String
  scopes : List String
  expiresAt : Option ℚ
  revokedAt : Option ℚ

/-- The tables: a subject has one user, and a role is one of a user. -/
structure Directory where
  users : Table UserRow UserRow.id
  roles : Table RoleRow RoleRow.id
  apiKeys : List ApiKeyRow
  kcSub_unique : ∀ id id' row row', users.row id = some row → users.row id' = some row' →
    row.kcSub = row'.kcSub → id = id'
  roles_userId : ∀ id role, roles.row id = some role → (users.row role.userId).isSome

namespace Directory

variable (d : Directory)

/-- No user, no role and no key. -/
def empty : Directory where
  users := .empty
  roles := .empty
  apiKeys := []
  kcSub_unique _ _ _ _ h := by cases h
  roles_userId _ _ h := by cases h

/-- The user of a subject. -/
def findUser (kcSub : String) : Option UserRow := d.users.rows.find? fun row => row.kcSub = kcSub

/-- Nobody is known at first. -/
theorem findUser_empty (kcSub : String) : empty.findUser kcSub = none := rfl

/-- The rows of a user's roles. -/
def rolesOf (userId : ℕ) : List RoleRow := d.roles.rows.filter fun row => row.userId = userId

/-- A user has a role, in some department. -/
def Holds (userId : ℕ) (role : String) : Prop := ∃ row ∈ d.rolesOf userId, row.role = role

/-- A user has some role. -/
def HasRole (userId : ℕ) : Prop := d.rolesOf userId ≠ []

instance (userId : ℕ) : Decidable (d.HasRole userId) := inferInstanceAs (Decidable (_ ≠ []))

variable {d}

/-- The user of a subject is the row with that subject. -/
theorem findUser_eq_some {kcSub : String} {row : UserRow} :
    d.findUser kcSub = some row ↔ d.users.row row.id = some row ∧ row.kcSub = kcSub := by
  constructor
  · intro h
    exact ⟨d.users.row_key (List.mem_of_find?_eq_some h), by simpa using List.find?_some h⟩
  · rintro ⟨hrow, hsub⟩
    cases hfound : d.findUser kcSub with
    | none =>
      have hnot := List.find?_eq_none.mp hfound row (d.users.mem_rows.mpr ⟨row.id, hrow⟩)
      simp [hsub] at hnot
    | some row' =>
      have hrow' := d.users.row_key (List.mem_of_find?_eq_some hfound)
      have hsub' : row'.kcSub = kcSub := by simpa using List.find?_some hfound
      have hid := d.kcSub_unique _ _ _ _ hrow' hrow (hsub'.trans hsub.symm)
      rw [hid, hrow] at hrow'
      exact hrow'.symm

/-- A subject without a user. -/
theorem findUser_eq_none {kcSub : String} :
    d.findUser kcSub = none ↔ ∀ id row, d.users.row id = some row → row.kcSub ≠ kcSub := by
  constructor
  · intro h id row hrow
    simpa using List.find?_eq_none.mp h row (d.users.mem_rows.mpr ⟨id, hrow⟩)
  · intro h
    apply List.find?_eq_none.mpr
    intro row hrow
    simpa using h _ row (d.users.row_key hrow)

/-- The roles of a user are found in the table. -/
theorem holds_iff {userId : ℕ} {role : String} :
    d.Holds userId role ↔ ∃ id row, d.roles.row id = some row ∧ row.userId = userId ∧ row.role = role := by
  simp only [Holds, rolesOf, List.mem_filter, decide_eq_true_eq, Table.mem_rows]
  constructor
  · rintro ⟨row, ⟨⟨id, hrow⟩, huser⟩, hrole⟩
    exact ⟨id, row, hrow, huser, hrole⟩
  · rintro ⟨id, row, hrow, huser, hrole⟩
    exact ⟨row, ⟨⟨id, hrow⟩, huser⟩, hrole⟩

/-- Who has a role is a user. -/
theorem Holds.isSome_row {userId : ℕ} {role : String} (h : d.Holds userId role) : (d.users.row userId).isSome := by
  obtain ⟨id, row, hrow, rfl, -⟩ := holds_iff.mp h
  exact d.roles_userId id row hrow

/-- A user has some role exactly when there is one. -/
theorem hasRole_iff {userId : ℕ} : d.HasRole userId ↔ ∃ role, d.Holds userId role := by
  constructor
  · intro h
    obtain ⟨row, hrow⟩ := List.exists_mem_of_ne_nil _ h
    exact ⟨row.role, row, hrow, rfl⟩
  · rintro ⟨role, row, hrow, -⟩
    exact List.ne_nil_of_mem hrow

/-! ## Statements -/

variable (d)

/-- `INSERT INTO users`; the display name of a new user is the subject. -/
def insertUser (kcSub emailHash : String) (hnew : d.findUser kcSub = none) : Directory where
  users := d.users.insert ⟨d.users.next, kcSub, emailHash, kcSub⟩ rfl
  roles := d.roles
  apiKeys := d.apiKeys
  kcSub_unique id id' row row' hrow hrow' hsub := by
    have hold := findUser_eq_none.mp hnew
    rw [Table.row_insert] at hrow hrow'
    split at hrow <;> split at hrow'
    · omega
    · cases hrow
      exact absurd hsub.symm (hold _ _ hrow')
    · cases hrow'
      exact absurd hsub (hold _ _ hrow)
    · exact d.kcSub_unique _ _ _ _ hrow hrow' hsub
  roles_userId id role hrole := by
    rw [Table.row_insert]
    split
    · rfl
    · exact d.roles_userId id role hrole

/-- `UPDATE users SET email_hash`. -/
def setEmailHash (userId : ℕ) (emailHash : String) : Directory where
  users := d.users.update userId (fun row => { row with emailHash := emailHash }) fun _ => rfl
  roles := d.roles
  apiKeys := d.apiKeys
  kcSub_unique id id' row row' hrow hrow' hsub := by
    have hkept : ∀ i r, (d.users.update userId (fun row => { row with emailHash := emailHash }) fun _ => rfl).row i
        = some r → ∃ old, d.users.row i = some old ∧ old.kcSub = r.kcSub := by
      intro i r hr
      rw [Table.row_update] at hr
      split at hr
      · rename_i hi
        obtain ⟨old, hold, rfl⟩ := Option.map_eq_some_iff.mp hr
        exact ⟨old, hi ▸ hold, rfl⟩
      · exact ⟨r, hr, rfl⟩
    obtain ⟨old, hold, heq⟩ := hkept id row hrow
    obtain ⟨old', hold', heq'⟩ := hkept id' row' hrow'
    exact d.kcSub_unique _ _ _ _ hold hold' (heq.trans (hsub.trans heq'.symm))
  roles_userId id role hrole := by
    have huser := d.roles_userId id role hrole
    rw [Table.row_update]
    split
    · rename_i hi
      rw [Option.isSome_map, ← hi]
      exact huser
    · exact huser

/-- `INSERT INTO roles`. -/
def insertRole (userId : ℕ) (role : String) (deptId : Option ℕ) (huser : (d.users.row userId).isSome) : Directory where
  users := d.users
  roles := d.roles.insert ⟨d.roles.next, userId, role, deptId⟩ rfl
  apiKeys := d.apiKeys
  kcSub_unique := d.kcSub_unique
  roles_userId id row hrow := by
    rw [Table.row_insert] at hrow
    split at hrow
    · cases hrow
      exact huser
    · exact d.roles_userId id row hrow

/-- `DELETE FROM roles`. -/
def deleteRole (roleId : ℕ) : Directory where
  users := d.users
  roles := d.roles.delete roleId
  apiKeys := d.apiKeys
  kcSub_unique := d.kcSub_unique
  roles_userId id row hrow := by
    rw [Table.row_delete] at hrow
    split at hrow
    · cases hrow
    · exact d.roles_userId id row hrow

/-- Add rows of roles without a department, one for each name; nothing is added for no user. -/
def insertRoles (d : Directory) (userId : ℕ) : List String → Directory
  | [] => d
  | role :: rest =>
    if huser : (d.users.row userId).isSome then (d.insertRole userId role none huser).insertRoles userId rest else d

end Directory

/-! ## Calls -/

/-- What authorization and the management of roles wait for. -/
inductive AccessCall where
  | http (c : HttpCall)
  | findUser (kcSub : Json)
  | setEmailHash (userId : ℕ) (emailHash : String)
  | insertUser (kcSub : Json) (emailHash : String)
  | hasRole (userId : ℕ)
  | insertRoles (userId : ℕ) (roles : List Json)
  | loadRoles (userId : ℕ)
  | findApiKey (hash : String)
  | now
  | getUser (userId : ℕ)
  | findRole (userId : ℕ) (role : String) (deptId : Option ℕ)
  | insertRole (userId : ℕ) (role : String) (deptId : Option ℕ)
  | getRole (roleId : ℕ)
  | deleteRole (roleId : ℕ)
  | refresh (roleId : ℕ)
  | commit

/-- What each call returns. -/
@[reducible] def AccessCall.Reply : AccessCall → Type
  | http c => c.Reply
  | findUser _ => Option UserRow
  | setEmailHash _ _ => Unit
  | insertUser _ _ => UserRow
  | hasRole _ => Bool
  | insertRoles _ _ => Unit
  | loadRoles _ => List String
  | findApiKey _ => Option ApiKeyRow
  | now => ℚ
  | getUser _ => Option UserRow
  | findRole _ _ _ => Option RoleRow
  | insertRole _ _ _ => RoleRow
  | getRole _ => Option RoleRow
  | deleteRole _ => Unit
  | refresh _ => Unit
  | commit => Unit

/-- A coroutine of authorization. -/
abbrev Accessing := Prog AccessCall AccessCall.Reply Exc

/-- Await one call. -/
abbrev awaitAccess (c : AccessCall) : Accessing c.Reply := Prog.call c

/-- What is around one request: the replies over HTTP, the time, and which statements fail. -/
structure Surroundings where
  http : (c : HttpCall) → Except Exc c.Reply
  time : ℚ
  fault : AccessCall → Option Exc

/-- The tables as they are committed and as a session sees them. -/
structure Session where
  committed : Directory
  pending : Directory

/-- The session of a new request. -/
def Directory.session (d : Directory) : Session := ⟨d, d⟩

/-- The driver takes texts only. -/
def driverError : Exc := ⟨.external, "DataError"⟩

/-- The database refuses a row. -/
def integrityError : Exc := ⟨.integrityError, "IntegrityError"⟩

/-- The text that a JSON value is. -/
def textOf : Json → Option String
  | .str s => some s
  | _ => none

namespace Session

variable (surroundings : Surroundings) (s : Session)

/-- The session after a statement that writes. -/
def write (d : Directory) : Session := { s with pending := d }

/-- What a call does and what it returns, if it is carried out. -/
def carryOut : (c : AccessCall) → Except Exc (Session × c.Reply)
  | .http c => (surroundings.http c).map fun reply => (s, reply)
  | .findUser kcSub =>
    match textOf kcSub with
    | some kcSub => .ok (s, s.pending.findUser kcSub)
    | none => .error driverError
  | .setEmailHash userId emailHash => .ok (s.write (s.pending.setEmailHash userId emailHash), ())
  | .insertUser kcSub emailHash =>
    match textOf kcSub with
    | some kcSub =>
      if hnew : s.pending.findUser kcSub = none then
        .ok (s.write (s.pending.insertUser kcSub emailHash hnew), ⟨s.pending.users.next, kcSub, emailHash, kcSub⟩)
      else .error integrityError
    | none => .error driverError
  | .hasRole userId => .ok (s, decide (s.pending.HasRole userId))
  | .insertRoles userId roles =>
    match roles.mapM textOf with
    | some roles =>
      if (s.pending.users.row userId).isSome then .ok (s.write (s.pending.insertRoles userId roles.dedup), ())
      else .error integrityError
    | none => .error driverError
  | .loadRoles userId => .ok (s, (s.pending.rolesOf userId).map RoleRow.role)
  | .findApiKey hash => .ok (s, s.pending.apiKeys.find? fun row => row.hash = hash)
  | .now => .ok (s, surroundings.time)
  | .getUser userId => .ok (s, s.pending.users.row userId)
  | .findRole userId role deptId =>
    match (s.pending.rolesOf userId).filter fun row => row.role = role && row.deptId = deptId with
    | [] => .ok (s, none)
    | [row] => .ok (s, some row)
    | _ => .error ⟨.multipleResults, "Multiple rows were found when one or none was required"⟩
  | .insertRole userId role deptId =>
    if huser : (s.pending.users.row userId).isSome then
      .ok (s.write (s.pending.insertRole userId role deptId huser), ⟨s.pending.roles.next, userId, role, deptId⟩)
    else .error integrityError
  | .getRole roleId => .ok (s, s.pending.roles.row roleId)
  | .deleteRole roleId => .ok (s.write (s.pending.deleteRole roleId), ())
  | .refresh _ => .ok (s, ())
  | .commit => .ok ({ s with committed := s.pending }, ())

/-- Answer one call; a statement that fails has no effect. -/
def answer (c : AccessCall) : Session × Except Exc c.Reply :=
  match surroundings.fault c with
  | some error => (s, .error error)
  | none =>
    match s.carryOut surroundings c with
    | .ok (s', reply) => (s', .ok reply)
    | .error error => (s, .error error)

end Session

end FleetWorkflow.Access
