import FleetWorkflow.Access.Revocation
import FleetWorkflow.Store.Sessions
import Mathlib.Data.List.Induction

/-!
# Keys of services

Admins issue keys and revoke them; a request that presents a key is let through while the key is neither revoked nor
expired. Only the hash of a key is stored. Over every sequence of these requests, and whichever of their statements fail, a
key that lets a request through goes back to one issue, with the scopes and the expiry that were asked for, and to no
revocation that was acknowledged.
-/

namespace FleetWorkflow.Access

open Python Async Store Api

/-! ## Rows -/

/-- A row of `api_keys`, with the columns that authorization does not read. -/
structure KeyRow extends ApiKeyRow where
  deptId : Option ℕ
  createdBy : Json

/-- The row of a key that is revoked. -/
def KeyRow.revoked (row : KeyRow) (now : ℚ) : KeyRow := { row with revokedAt := some now }

@[simp] theorem KeyRow.revoked_id (row : KeyRow) (now : ℚ) : (row.revoked now).id = row.id := rfl

/-- The table of keys: hashes are unique. -/
structure KeyTable where
  keys : Table KeyRow fun row => row.id
  hash_unique : ∀ id id' row row', keys.row id = some row → keys.row id' = some row' → row.hash = row'.hash → id = id'

/-- `hash_key(raw_key)`. -/
def hashKey (rawKey : String) : String := Python.sha256 (encodeUtf8 rawKey)

/-- `generate_key()`, given the random token. -/
def generateKey (token : String) : String := "fk_" ++ token

/-- The request to issue a key; a number of days is positive. -/
structure ApiKeyIn where
  name : String
  scopes : List String
  deptId : Option ℕ
  expiresInDays : Option ℕ
  days_pos : ∀ days, expiresInDays = some days → 0 < days

/-- The time at which a key that is issued expires. -/
def ApiKeyIn.expiresAt (body : ApiKeyIn) (now : ℚ) : Option ℚ := body.expiresInDays.map fun (days : ℕ) => now + 86400 * days

namespace KeyTable

variable (table : KeyTable)

/-- No key. -/
def empty : KeyTable where
  keys := .empty
  hash_unique _ _ _ _ h := by cases h

/-- A hash is that of some row. -/
def HasHash (hash : String) : Prop := ∃ row ∈ table.keys.rows, row.hash = hash

instance (hash : String) : Decidable (table.HasHash hash) :=
  inferInstanceAs (Decidable (∃ row ∈ table.keys.rows, row.hash = hash))

variable {table} in
/-- A hash that no row has. -/
theorem not_hasHash {hash : String} :
    ¬ table.HasHash hash ↔ ∀ id row, table.keys.row id = some row → row.hash ≠ hash := by
  simp only [HasHash, Table.mem_rows, not_exists, not_and, forall_exists_index]
  exact ⟨fun h id row hrow => h row id hrow, fun h row id hrow => h id row hrow⟩

/-- Add a key under a new hash. -/
def insert (row : KeyRow) (hid : row.id = table.keys.next) (hnew : ¬ table.HasHash row.hash) : KeyTable where
  keys := table.keys.insert row hid
  hash_unique id id' row₁ row₂ h h' hhash := by
    have hother := not_hasHash.mp hnew
    rw [Table.row_insert] at h h'
    split at h
    · split at h'
      · rename_i hid hid'
        rw [hid, hid']
      · cases h
        exact absurd hhash.symm (hother id' row₂ h')
    · split at h'
      · cases h'
        exact absurd hhash (hother id row₁ h)
      · exact table.hash_unique id id' row₁ row₂ h h' hhash

/-- Mark a key as revoked. -/
def revoke (id : ℕ) (now : ℚ) : KeyTable where
  keys := table.keys.update id (fun row => row.revoked now) fun row => row.revoked_id now
  hash_unique id₁ id₂ row₁ row₂ h₁ h₂ hhash := by
    have hbefore (id' : ℕ) (row' : KeyRow) (h : (table.keys.update id (fun row => row.revoked now) fun row =>
        row.revoked_id now).row id' = some row') : ∃ row, table.keys.row id' = some row ∧ row.hash = row'.hash := by
      rw [Table.row_update] at h
      split at h
      · rename_i hid
        obtain ⟨row, hrow, rfl⟩ := Option.map_eq_some_iff.mp h
        exact ⟨row, hid ▸ hrow, rfl⟩
      · exact ⟨row', h, rfl⟩
    obtain ⟨row, hrow, hsame⟩ := hbefore id₁ row₁ h₁
    obtain ⟨row', hrow', hsame'⟩ := hbefore id₂ row₂ h₂
    exact table.hash_unique id₁ id₂ row row' hrow hrow' (by rw [hsame, hhash, hsame'])

/-- Reading after an insertion. -/
theorem row_insert (row : KeyRow) (hid : row.id = table.keys.next) (hnew : ¬ table.HasHash row.hash) (id : ℕ) :
    (table.insert row hid hnew).keys.row id = if id = table.keys.next then some row else table.keys.row id :=
  table.keys.row_insert row hid id

/-- Reading after a revocation. -/
theorem row_revoke (id : ℕ) (now : ℚ) (id' : ℕ) : (table.revoke id now).keys.row id' =
    if id' = id then (table.keys.row id).map fun row => row.revoked now else table.keys.row id' :=
  table.keys.row_update id (fun row => row.revoked now) (fun row => row.revoked_id now) id'

end KeyTable

/-! ## Requests -/

/-- What the requests of admins wait for. -/
inductive KeyCall where
  | token
  | now
  | insertKey (name hash : String) (scopes : List String) (deptId : Option ℕ) (expiresAt : Option ℚ) (createdBy : Json)
  | getKey (id : ℕ)
  | setRevoked (id : ℕ) (now : ℚ)
  | commit
  | refresh (id : ℕ)

/-- What each call returns. -/
@[reducible] def KeyCall.Reply : KeyCall → Type
  | token => String
  | now => ℚ
  | insertKey .. => ℕ
  | getKey _ => Option KeyRow
  | setRevoked _ _ => Unit
  | commit => Unit
  | refresh _ => KeyRow

/-- A coroutine over the table of keys. -/
abbrev Keying := Prog KeyCall KeyCall.Reply Exc

/-- Await one call. -/
abbrev awaitKey (c : KeyCall) : Keying c.Reply := Prog.call c

/-- The time at which a key expires; without a number of days the clock is not read. -/
def expiry (body : ApiKeyIn) : Keying (Option ℚ) :=
  if body.expiresInDays.isSome then do
    return body.expiresAt (← awaitKey .now)
  else return none

/-- `issue_api_key(body)`: the raw key and its row. -/
def issueApiKey (body : ApiKeyIn) (sub : Json) : Keying (String × KeyRow) := do
  let rawKey := generateKey (← awaitKey .token)
  let expiresAt ← expiry body
  let id ← awaitKey (.insertKey body.name (hashKey rawKey) body.scopes body.deptId expiresAt sub)
  awaitKey .commit
  return (rawKey, ← awaitKey (.refresh id))

/-- `revoke_api_key(key_id)`. -/
def revokeApiKey (keyId : ℕ) : Keying Unit := do
  match ← awaitKey (.getKey keyId) with
  | none => .raise (httpException 404 "api key not found")
  | some row =>
    if row.revokedAt.isNone then do
      let now ← awaitKey .now
      awaitKey (.setRevoked keyId now)
      awaitKey .commit

/-- What is around one request: the random token, and the time. -/
structure KeyAround where
  token : String
  time : ℚ

/-- What a statement makes of the table. -/
def KeyTable.execute (around : KeyAround) (table : KeyTable) : (c : KeyCall) → Except Exc (KeyTable × c.Reply)
  | .token => .ok (table, around.token)
  | .now => .ok (table, around.time)
  | .insertKey name hash scopes deptId expiresAt createdBy =>
    if hnew : ¬ table.HasHash hash then
      .ok (table.insert ⟨⟨table.keys.next, name, hash, scopes, expiresAt, none⟩, deptId, createdBy⟩ rfl hnew, table.keys.next)
    else .error integrityError
  | .getKey id => .ok (table, table.keys.row id)
  | .setRevoked id now => .ok (table.revoke id now, ())
  | .commit => .ok (table, ())
  | .refresh id =>
    match table.keys.row id with
    | some row => .ok (table, row)
    | none => .error ⟨.external, "Could not refresh instance"⟩

/-- The database of keys. -/
def keyDatabase (around : KeyAround) : Database KeyCall KeyCall.Reply Exc KeyTable where
  execute := KeyTable.execute around
  commits
    | .commit => true
    | _ => false

/-- A request that changes the keys. -/
inductive KeyRequest where
  | issue (body : ApiKeyIn) (sub : Json)
  | revoke (keyId : ℕ)

/-- The handler of a request, with the raw key and the row that it returns. -/
def KeyRequest.task : KeyRequest → Keying (Option (String × KeyRow))
  | .issue body sub => do return some (← issueApiKey body sub)
  | .revoke keyId => do
    revokeApiKey keyId
    return none

/-- A request with what is around it and which of its statements fail. -/
structure KeyTurn where
  request : KeyRequest
  around : KeyAround
  fault : ℕ → Option (Fault Exc)

/-- What a request returns. -/
def KeyTurn.outcome (turn : KeyTurn) (table : KeyTable) : Except Exc (Option (String × KeyRow)) :=
  (turn.request.task.run ((keyDatabase turn.around).answer turn.fault) (.start table)).2

/-- The keys after a request. -/
def KeyTurn.serve (turn : KeyTurn) (table : KeyTable) : KeyTable :=
  (keyDatabase turn.around).serve turn.fault turn.request.task table

/-- The keys after requests, one after another. -/
def KeyTable.serveAll (table : KeyTable) (turns : List KeyTurn) : KeyTable :=
  turns.foldl (fun table turn => turn.serve table) table

/-- The directory with the keys of a table. -/
def Directory.withKeys (d : Directory) (table : KeyTable) : Directory :=
  { d with apiKeys := table.keys.rows.map KeyRow.toApiKeyRow }

/-! ## What a request does to the table -/

section Effects

variable {around : KeyAround} {body : ApiKeyIn} {sub : Json} {table table' : KeyTable} {fault : ℕ → Option (Fault Exc)}

/-- The row of a key that is issued. -/
def issuedRow (around : KeyAround) (body : ApiKeyIn) (sub : Json) (id : ℕ) : KeyRow :=
  ⟨⟨id, body.name, hashKey (generateKey around.token), body.scopes, body.expiresAt around.time, none⟩, body.deptId, sub⟩

/-- An issue leaves the table and fails, or it adds the row, which is returned if anything is. -/
def Issues (around : KeyAround) (body : ApiKeyIn) (sub : Json) (table : KeyTable) (result : Except Exc (String × KeyRow))
    (table' : KeyTable) : Prop :=
  (table' = table ∧ ∀ value, result ≠ .ok value) ∨
    (∃ hid hnew, table' = table.insert (issuedRow around body sub table.keys.next) hid hnew) ∧
      ∀ value, result = .ok value → value = (generateKey around.token, issuedRow around body sub table.keys.next)

/-- The expiry is read of the clock. -/
theorem ensures_expiry {α : Type} {f : Option ℚ → Keying α} {post : Except Exc α → Transaction KeyTable → Prop}
    {t : Transaction KeyTable} (hfailed : ∀ error n, post (.error error) { t with statements := n })
    (hnext : ∀ n, (keyDatabase around).protocol.Ensures post (f (body.expiresAt around.time)) { t with statements := n }) :
    (keyDatabase around).protocol.Ensures post (expiry body >>= f) t := by
  rw [expiry]
  split
  · rw [Prog.bind_assoc]
    apply Database.ensures_statement (fun error => hfailed error _)
    intro s value hexecute
    cases hexecute
    exact ⟨fun error => hfailed error _, hnext _⟩
  · rename_i hnone
    have hexpiry : body.expiresAt around.time = none := by
      rw [ApiKeyIn.expiresAt, Option.not_isSome_iff_eq_none.mp hnone, Option.map_none]
    rw [hexpiry] at hnext
    exact hnext t.statements

/-- Issuing a key. -/
theorem ensures_issueApiKey : (keyDatabase around).protocol.Ensures
    (fun result t => Issues around body sub table result t.committed) (issueApiKey body sub) (.start table) := by
  have hfailed (error : Exc) : Issues around body sub table (.error error) table := .inl ⟨rfl, fun value h => by cases h⟩
  apply Database.ensures_statement hfailed
  intro s token htoken
  cases htoken
  refine ⟨hfailed, ?_⟩
  apply ensures_expiry (fun error _ => hfailed error)
  intro n
  apply Database.ensures_statement hfailed
  intro s id hinsert
  simp only [keyDatabase, KeyTable.execute] at hinsert
  split at hinsert
  · rename_i hnew
    cases hinsert
    refine ⟨hfailed, ?_⟩
    have hinserted (result : Except Exc (String × KeyRow)) (h : ∀ value, result = .ok value →
        value = (generateKey around.token, issuedRow around body sub table.keys.next)) :
        Issues around body sub table result (table.insert (issuedRow around body sub table.keys.next) rfl hnew) :=
      .inr ⟨⟨rfl, hnew, rfl⟩, h⟩
    have hlost (error : Exc) : Issues around body sub table (.error error)
        (table.insert (issuedRow around body sub table.keys.next) rfl hnew) := hinserted _ fun value h => by cases h
    apply Database.ensures_statement hfailed
    intro s value hcommit
    cases hcommit
    refine ⟨hlost, ?_⟩
    apply Database.ensures_statement hlost
    intro s row hrefresh
    simp only [keyDatabase, KeyTable.execute] at hrefresh
    split at hrefresh
    · rename_i hfound
      cases hrefresh
      refine ⟨hlost, hinserted _ fun value h => ?_⟩
      have hrow : some row = some (issuedRow around body sub table.keys.next) :=
        hfound.symm.trans ((table.row_insert (issuedRow around body sub table.keys.next) rfl hnew _).trans (if_pos rfl))
      rw [← Option.some.inj hrow]
      exact (Except.ok.inj h).symm
    · cases hrefresh
  · cases hinsert

/-- A revocation leaves the table or marks the row, which is marked when the revocation is acknowledged. -/
def Revokes (keyId : ℕ) (table : KeyTable) (acknowledged : Prop) (table' : KeyTable) : Prop :=
  (table' = table ∨ ∃ now, table' = table.revoke keyId now ∧
      ∀ row, table.keys.row keyId = some row → row.revokedAt = none) ∧
    (acknowledged → ∃ row, table'.keys.row keyId = some row ∧ row.revokedAt.isSome)

/-- Revoking a key. -/
theorem ensures_revokeApiKey {keyId : ℕ} : (keyDatabase around).protocol.Ensures
    (fun result t => Revokes keyId table (result = .ok ()) t.committed) (revokeApiKey keyId) (.start table) := by
  have hfailed (error : Exc) : Revokes keyId table ((.error error : Except Exc Unit) = .ok ()) table :=
    ⟨.inl rfl, fun h => by cases h⟩
  apply Database.ensures_statement hfailed
  intro s found hfound
  cases hfound
  refine ⟨hfailed, ?_⟩
  have hread : (Transaction.start table).pending.keys.row keyId = table.keys.row keyId := rfl
  rw [hread]
  cases hrow : table.keys.row keyId with
  | none => exact hfailed _
  | some row =>
    dsimp only
    split
    · rename_i hnone
      have hunrevoked : ∀ row', table.keys.row keyId = some row' → row'.revokedAt = none := by
        intro row' hrow'
        rw [hrow] at hrow'
        cases hrow'
        exact Option.isNone_iff_eq_none.mp hnone
      apply Database.ensures_statement hfailed
      intro s now hnow
      cases hnow
      refine ⟨hfailed, ?_⟩
      apply Database.ensures_statement hfailed
      intro s value hset
      cases hset
      refine ⟨hfailed, ?_⟩
      have hrevoked (result : Except Exc Unit) : Revokes keyId table (result = .ok ()) (table.revoke keyId around.time) := by
        refine ⟨.inr ⟨_, rfl, hunrevoked⟩, fun _ => ⟨row.revoked around.time, ?_, rfl⟩⟩
        rw [KeyTable.row_revoke, if_pos rfl, hrow, Option.map_some]
      apply Database.ensures_last hfailed
      intro s value hcommit
      cases hcommit
      exact ⟨fun error => hrevoked _, hrevoked _⟩
    · rename_i hsome
      refine ⟨.inl rfl, fun _ => ⟨row, hrow, ?_⟩⟩
      rwa [Option.isNone_iff_eq_none, ← ne_eq, Option.ne_none_iff_isSome] at hsome

end Effects

/-! ## Where a key comes from -/

section Histories

variable {body : ApiKeyIn} {sub : Json} {keyId : ℕ} {turn : KeyTurn} {table : KeyTable}

/-- A request that issues. -/
theorem KeyTurn.issues (h : turn.request = .issue body sub) (table : KeyTable) :
    ∃ result, Issues turn.around body sub table result (turn.serve table) ∧ turn.outcome table = result.map some := by
  have hensures : (keyDatabase turn.around).protocol.Ensures (fun outcome t => ∃ result,
      Issues turn.around body sub table result t.committed ∧ outcome = result.map some) turn.request.task (.start table) := by
    rw [h]
    apply Protocol.ensures_bind.mpr
    apply ensures_issueApiKey.mono
    intro result t hissues
    cases result with
    | error error => exact ⟨_, hissues, rfl⟩
    | ok value => exact ⟨_, hissues, rfl⟩
  exact Database.ensures_run hensures

/-- A request that revokes. -/
theorem KeyTurn.revokes (h : turn.request = .revoke keyId) (table : KeyTable) :
    Revokes keyId table (∃ value, turn.outcome table = .ok value) (turn.serve table) := by
  have hensures : (keyDatabase turn.around).protocol.Ensures (fun outcome t =>
      Revokes keyId table (∃ value, outcome = .ok value) t.committed) turn.request.task (.start table) := by
    rw [h]
    apply Protocol.ensures_bind.mpr
    apply ensures_revokeApiKey.mono
    intro result t hrevokes
    cases result with
    | error error => exact ⟨hrevokes.1, fun ⟨value, hvalue⟩ => by cases hvalue⟩
    | ok value => exact ⟨hrevokes.1, fun _ => hrevokes.2 rfl⟩
  exact Database.ensures_run hensures

/-- One more request. -/
theorem KeyTable.serveAll_concat (turns : List KeyTurn) (turn : KeyTurn) :
    table.serveAll (turns ++ [turn]) = turn.serve (table.serveAll turns) := by
  rw [KeyTable.serveAll, List.foldl_append]
  rfl

/-- A row was issued by one request of a history, and no later revocation of it was acknowledged unless it is marked. -/
structure Traced (turns : List KeyTurn) (row : KeyRow) (earlier : List KeyTurn) (turn : KeyTurn) (later : List KeyTurn)
    (body : ApiKeyIn) (sub : Json) : Prop where
  turns_eq : turns = earlier ++ turn :: later
  request : turn.request = .issue body sub
  issued : { row with revokedAt := none } = issuedRow turn.around body sub row.id
  unrevoked : row.revokedAt = none → ∀ middle revocation rest, later = middle ++ revocation :: rest →
    revocation.request = .revoke row.id →
      ∀ value, revocation.outcome (KeyTable.empty.serveAll (earlier ++ turn :: middle)) ≠ .ok value

variable {turns earlier later : List KeyTurn} {row : KeyRow}

/-- A row is traced through one more request, unless this is an acknowledged revocation of it. -/
theorem Traced.concat (h : Traced turns row earlier turn later body sub) {last : KeyTurn}
    (hlast : row.revokedAt = none → last.request = .revoke row.id →
      ∀ value, last.outcome (KeyTable.empty.serveAll turns) ≠ .ok value) :
    Traced (turns ++ [last]) row earlier turn (later ++ [last]) body sub where
  turns_eq := by rw [h.turns_eq, List.append_assoc, List.cons_append]
  request := h.request
  issued := h.issued
  unrevoked hnone middle revocation rest hsplit hrequest value := by
    rcases List.eq_nil_or_concat' rest with rfl | ⟨rest', last', rfl⟩
    · obtain ⟨rfl, hsame⟩ := List.append_inj' hsplit rfl
      obtain rfl := List.singleton_inj.mp hsame
      rw [← h.turns_eq]
      exact hlast hnone hrequest value
    · have hsplit' : later ++ [last] = (middle ++ revocation :: rest') ++ [last'] := by
        rw [hsplit, List.append_assoc, List.cons_append]
      obtain ⟨hlater, -⟩ := List.append_inj' hsplit' rfl
      exact h.unrevoked hnone middle revocation rest' hlater hrequest value

/-- Every row of a history is traced. -/
theorem exists_traced (turns : List KeyTurn) : ∀ id row, (KeyTable.empty.serveAll turns).keys.row id = some row →
    ∃ earlier turn later body sub, Traced turns row earlier turn later body sub := by
  induction turns using List.reverseRecOn with
  | nil =>
    intro id row hrow
    cases hrow
  | append_singleton turns last ih =>
    intro id row hrow
    rw [KeyTable.serveAll_concat] at hrow
    have hkept (h : (KeyTable.empty.serveAll turns).keys.row id = some row) (hlast : row.revokedAt = none →
        last.request = .revoke row.id → ∀ value, last.outcome (KeyTable.empty.serveAll turns) ≠ .ok value) :
        ∃ earlier turn later body sub, Traced (turns ++ [last]) row earlier turn later body sub := by
      obtain ⟨earlier, turn, later, body, sub, htraced⟩ := ih id row h
      exact ⟨earlier, turn, later ++ [last], body, sub, htraced.concat hlast⟩
    cases hrequest : last.request with
    | issue body sub =>
      have hother : row.revokedAt = none → KeyRequest.issue body sub = .revoke row.id →
          ∀ value, last.outcome (KeyTable.empty.serveAll turns) ≠ .ok value := fun _ h => by cases h
      obtain ⟨result, hissues, -⟩ := last.issues hrequest (KeyTable.empty.serveAll turns)
      rcases hissues with ⟨hsame, -⟩ | ⟨⟨hid, hnew, hinserted⟩, -⟩
      · rw [hsame] at hrow
        exact hkept hrow (hrequest ▸ hother)
      · rw [hinserted, KeyTable.row_insert] at hrow
        split at hrow
        · cases hrow
          exact ⟨turns, last, [], body, sub, rfl, hrequest, rfl, fun _ middle revocation rest hsplit => by simp at hsplit⟩
        · exact hkept hrow (hrequest ▸ hother)
    | revoke keyId =>
      obtain ⟨hchange, hmarked⟩ := last.revokes hrequest (KeyTable.empty.serveAll turns)
      have hid : row.id = id := (last.serve (KeyTable.empty.serveAll turns)).keys.keyed id row hrow
      have hlast : row.revokedAt = none → last.request = .revoke row.id →
          ∀ value, last.outcome (KeyTable.empty.serveAll turns) ≠ .ok value := by
        intro hnone hrevoke value hvalue
        rw [hrequest, KeyRequest.revoke.injEq] at hrevoke
        obtain ⟨row', hrow', hsome⟩ := hmarked ⟨value, hvalue⟩
        rw [hrevoke, hid, hrow, Option.some.injEq] at hrow'
        rw [← hrow', hnone] at hsome
        cases hsome
      rcases hchange with hsame | ⟨now, hrevoked, -⟩
      · exact hkept (hsame ▸ hrow) hlast
      · rw [hrevoked, KeyTable.row_revoke] at hrow
        split at hrow
        · rename_i hsame
          obtain ⟨before, hbefore, rfl⟩ := Option.map_eq_some_iff.mp hrow
          obtain ⟨earlier, turn, later, body, sub, htraced⟩ := ih keyId before hbefore
          refine ⟨earlier, turn, later ++ [last], body, sub, ?_, htraced.request, htraced.issued, fun hnone => by cases hnone⟩
          rw [htraced.turns_eq, List.append_assoc, List.cons_append]
        · exact hkept hrow hlast

/-- A row that no request revokes stays as it is. -/
theorem row_serveAll (hrow : table.keys.row keyId = some row) (h : ∀ turn ∈ later, turn.request ≠ .revoke keyId) :
    (table.serveAll later).keys.row keyId = some row := by
  induction later generalizing table with
  | nil => exact hrow
  | cons turn rest ih =>
    apply ih _ fun turn' hturn' => h turn' (List.mem_cons_of_mem turn hturn')
    show (turn.serve table).keys.row keyId = some row
    cases hrequest : turn.request with
    | issue body sub =>
      obtain ⟨result, hissues, -⟩ := turn.issues hrequest table
      rcases hissues with ⟨hsame, -⟩ | ⟨⟨hid, hnew, hinserted⟩, -⟩
      · rw [hsame, hrow]
      · have hother : keyId ≠ table.keys.next := by
          rintro rfl
          rw [table.keys.row_next] at hrow
          cases hrow
        rw [hinserted, KeyTable.row_insert, if_neg hother, hrow]
    | revoke other =>
      have hother : keyId ≠ other := by
        rintro rfl
        exact h turn List.mem_cons_self hrequest
      rcases (turn.revokes hrequest table).1 with hsame | ⟨now, hrevoked, -⟩
      · rw [hsame, hrow]
      · rw [hrevoked, KeyTable.row_revoke, if_neg hother, hrow]

end Histories

/-! ## What a key lets through -/

section Admission

variable {server : Server} {py : Builtins} {surroundings : Surroundings} {d : Directory} {presented : Presented}
  {guard : Guard} {key : ApiKeyRow} {table : KeyTable} {row : KeyRow} {rawKey scope : String}

/-- A row is found by its hash. -/
theorem find?_withKeys {id : ℕ} (h : table.keys.row id = some row) :
    (d.withKeys table).apiKeys.find? (fun key => key.hash = row.hash) = some row.toApiKeyRow := by
  have hmem : row ∈ table.keys.rows := table.keys.mem_rows.mpr ⟨id, h⟩
  cases hfound : (d.withKeys table).apiKeys.find? fun key => key.hash = row.hash with
  | none =>
    have hnone := List.find?_eq_none.mp hfound row.toApiKeyRow (List.mem_map_of_mem hmem)
    exact absurd rfl (of_decide_eq_false (Bool.not_eq_true _ ▸ hnone))
  | some found =>
    obtain ⟨other, hother, rfl⟩ := List.mem_map.mp (List.mem_of_find?_eq_some hfound)
    have hhash : other.hash = row.hash := by simpa using List.find?_some hfound
    obtain ⟨id', hrow'⟩ := table.keys.mem_rows.mp hother
    obtain rfl := table.hash_unique id' id other row hrow' h hhash
    rw [hrow', Option.some.injEq] at h
    rw [h]

/-- A key that is found is that of a row with the hash. -/
theorem exists_row_of_find? {hash : String} (h : (d.withKeys table).apiKeys.find? (fun key => key.hash = hash) = some key) :
    ∃ id row, table.keys.row id = some row ∧ row.hash = hash ∧ key = row.toApiKeyRow := by
  obtain ⟨row, hrow, rfl⟩ := List.mem_map.mp (List.mem_of_find?_eq_some h)
  obtain ⟨id, hid⟩ := table.keys.mem_rows.mp hrow
  exact ⟨id, row, hid, by simpa using List.find?_some h, rfl⟩

/-- A record is valid when it is there, not revoked and not expired. -/
theorem validateRecord_eq_ok {record : Option ApiKeyRow} {now : ℚ} : validateRecord record now = .ok key ↔
    record = some key ∧ key.revokedAt = none ∧ ∀ expiresAt, key.expiresAt = some expiresAt → now < expiresAt := by
  cases record with
  | none => simp [validateRecord]
  | some record =>
    rw [validateRecord]
    constructor
    · intro h
      split at h
      · cases h
      · rename_i hrevoked
        have hnone : record.revokedAt = none := Option.not_isSome_iff_eq_none.mp hrevoked
        split at h
        · rename_i expiresAt hexpires
          split at h
          · cases h
          · rename_i hlater
            cases h
            refine ⟨rfl, hnone, fun expiresAt' hexpires' => ?_⟩
            rw [hexpires, Option.some.injEq] at hexpires'
            rw [← hexpires']
            exact not_le.mp hlater
        · rename_i hexpires
          cases h
          exact ⟨rfl, hnone, fun expiresAt' hexpires' => by rw [hexpires] at hexpires'; cases hexpires'⟩
    · rintro ⟨hrecord, hnone, hlater⟩
      obtain rfl := Option.some.inj hrecord
      rw [hnone]
      cases hexpires : record.expiresAt with
      | none => rfl
      | some expiresAt => exact if_neg (not_le.mpr (hlater expiresAt hexpires))

/-- A guard asks for a scope, if no token is presented where a user would do as well. -/
def Guard.AsksScope (presented : Presented) (scope : String) : Guard → Prop
  | .scope asked => asked = scope
  | .userOrScope _ asked => asked = scope ∧ presented.token = none
  | _ => False

/-- A key is one that was presented, found by its hash, valid and of the scope. -/
structure Usable (surroundings : Surroundings) (d : Directory) (presented : Presented) (scope rawKey : String)
    (key : ApiKeyRow) : Prop where
  presented : presented.key = some rawKey
  found : d.apiKeys.find? (fun key => key.hash = hashKey rawKey) = some key
  valid : validateRecord (some key) surroundings.time = .ok key
  scope : scope ∈ key.scopes

/-- Only a usable key makes a request that of a service. -/
def ByUsableKey (surroundings : Surroundings) (d : Directory) (presented : Presented) (guard : Guard)
    (result : Except Exc Principal) : Prop :=
  ∀ key, result = .ok (.service key) → ∃ scope rawKey, guard.AsksScope presented scope ∧
    Usable surroundings d presented scope rawKey key

/-- A request that is let through for a user is not that of a service. -/
theorem ensures_user {p : Accessing CurrentUser} {s : Session} : (accessProtocol surroundings).Ensures
    (fun result _ => ByUsableKey surroundings d presented guard result) (p >>= fun user => pure (.user user)) s := by
  apply Protocol.ensures_bind.mpr
  have hany : (accessProtocol surroundings).Ensures (fun _ _ => True) p s :=
    Protocol.ensures_only p.only_any (fun _ _ _ _ => ⟨trivial, fun _ _ _ => trivial⟩) trivial
  apply hany.mono
  intro result s' _
  cases result with
  | error error => exact fun key h => by cases h
  | ok user => exact fun key h => by cases h

/-- A key that is looked up is found by its hash, and valid. -/
theorem ensures_validKey : (accessProtocol surroundings).Ensures (fun result _ => ∀ key, result = .ok key →
    d.apiKeys.find? (fun key => key.hash = hashKey rawKey) = some key ∧
      validateRecord (some key) surroundings.time = .ok key) (usableKey rawKey) d.session := by
  apply Protocol.ensures_call_bind trivial
  intro reply s₁ hfind
  rcases answer_cases hfind with ⟨rfl, error, rfl⟩ | ⟨record, rfl, hout⟩
  · exact fun key h => by cases h
  cases hout
  apply Protocol.ensures_call_bind trivial
  intro reply s₂ hnow
  rcases answer_cases hnow with ⟨rfl, error, rfl⟩ | ⟨now, rfl, hout⟩
  · exact fun key h => by cases h
  cases hout
  apply Protocol.ensures_ofExcept.mpr
  intro key hvalid
  have hfound := (validateRecord_eq_ok.mp hvalid).1
  exact ⟨hfound, by rw [← hfound]; exact hvalid⟩

/-- A key that is looked up and checked for a scope is usable. -/
theorem ensures_usable (hpresented : presented.key = some rawKey) (hasks : guard.AsksScope presented scope) :
    (accessProtocol surroundings).Ensures (fun result _ => ByUsableKey surroundings d presented guard result)
      (usableKey rawKey >>= fun key =>
        (Prog.ofExcept (withScope scope key) : Accessing ApiKeyRow) >>= fun key => pure (.service key)) d.session := by
  have hrefused (error : Exc) : ByUsableKey surroundings d presented guard (.error error) := fun key h => by cases h
  apply Protocol.ensures_bind.mpr
  apply ensures_validKey.mono
  intro result s hresult
  cases result with
  | error error => exact hrefused error
  | ok key =>
    obtain ⟨hfound, hvalid⟩ := hresult key rfl
    apply Protocol.ensures_ofExcept_bind
    · exact fun error _ => hrefused error
    intro key' hscope
    rw [withScope] at hscope
    split at hscope
    · rename_i hmem
      cases hscope
      intro key' hresult
      cases hresult
      exact ⟨scope, rawKey, hasks, hpresented, hfound, hvalid, hmem⟩
    · cases hscope

/-- Every guard. -/
theorem ensures_byUsableKey (server : Server) (py : Builtins) : (accessProtocol surroundings).Ensures
    (fun result _ => ByUsableKey surroundings d presented guard result) (authorize server py presented guard) d.session := by
  cases guard with
  | anyone => exact fun key h => by cases h
  | permission permission => exact ensures_user
  | permissionAndRole permission role =>
    rw [authorize, ← Prog.bind_assoc]
    exact ensures_user
  | scope scope =>
    simp only [authorize, requireScope, getCurrentServiceKey]
    cases hpresented : presented.key with
    | none => exact fun key h => by cases h
    | some rawKey =>
      simp only [Prog.bind_assoc]
      exact ensures_usable hpresented rfl
  | userOrScope permission scope =>
    simp only [authorize, requireUserOrServiceScope]
    cases htoken : presented.token with
    | none =>
      dsimp only
      cases hpresented : presented.key with
      | none => exact fun key h => by cases h
      | some rawKey => exact ensures_usable hpresented ⟨rfl, htoken⟩
    | some token =>
      dsimp only
      rw [← Prog.bind_assoc]
      exact ensures_user

/-- A usable key lets a request through, as long as nothing fails. -/
theorem run_authorize_calm (server : Server) (py : Builtins) (hcalm : ∀ c, surroundings.fault c = none)
    (h : Usable surroundings d presented scope rawKey key) (hasks : guard.AsksScope presented scope) :
    ((authorize server py presented guard).run (Session.answer surroundings) d.session).2 = .ok (.service key) := by
  have hchecked : ((usableKey rawKey >>= fun key =>
      (Prog.ofExcept (withScope scope key) : Accessing ApiKeyRow) >>= fun key => pure (Principal.service key)).run
        (Session.answer surroundings) d.session).2 = .ok (.service key) := by
    have hvalid := run_usableKey_calm hcalm d rawKey
    rw [show d.apiKeys.find? (fun row => row.hash = Python.sha256 (encodeUtf8 rawKey)) = some key from h.found, h.valid]
      at hvalid
    rw [Prog.run_bind_of_ok hvalid, withScope, if_pos h.scope]
    rfl
  cases guard with
  | anyone | permission | permissionAndRole => exact hasks.elim
  | scope asked =>
    obtain rfl : asked = scope := hasks
    simp only [authorize, requireScope, getCurrentServiceKey, h.presented, Prog.bind_assoc]
    exact hchecked
  | userOrScope permission asked =>
    obtain ⟨rfl, htoken⟩ : asked = scope ∧ presented.token = none := hasks
    simp only [authorize, requireUserOrServiceScope, htoken, h.presented]
    exact hchecked

end Admission

/-! ## Issued, not revoked, not expired -/

/-- A key goes back to one issue of a raw key with the same hash: it has the scopes that were asked for, has not expired, and
no later revocation of it was acknowledged. -/
structure Granted (turns : List KeyTurn) (now : ℚ) (scope rawKey : String) (key : ApiKeyRow) (earlier : List KeyTurn)
    (turn : KeyTurn) (later : List KeyTurn) (body : ApiKeyIn) (sub : Json) : Prop where
  turns_eq : turns = earlier ++ turn :: later
  request : turn.request = .issue body sub
  hash : hashKey (generateKey turn.around.token) = hashKey rawKey
  scopes : key.scopes = body.scopes
  scope : scope ∈ body.scopes
  unexpired : ∀ expiresAt, body.expiresAt turn.around.time = some expiresAt → now < expiresAt
  unrevoked : ∀ middle revocation rest, later = middle ++ revocation :: rest → revocation.request = .revoke key.id →
    ∀ value, revocation.outcome (KeyTable.empty.serveAll (earlier ++ turn :: middle)) ≠ .ok value

/-- A usable key of a history was granted. -/
theorem Usable.granted {surroundings : Surroundings} {d : Directory} {presented : Presented} {scope rawKey : String}
    {key : ApiKeyRow} {turns : List KeyTurn}
    (h : Usable surroundings (d.withKeys (KeyTable.empty.serveAll turns)) presented scope rawKey key) :
    ∃ earlier turn later body sub, Granted turns surroundings.time scope rawKey key earlier turn later body sub := by
  obtain ⟨id, row, hrow, hhash, rfl⟩ := exists_row_of_find? h.found
  obtain ⟨earlier, turn, later, body, sub, htraced⟩ := exists_traced turns id row hrow
  obtain ⟨-, hnone, hexpires⟩ := validateRecord_eq_ok.mp h.valid
  have hissued := htraced.issued
  have hscopes : row.scopes = body.scopes := congrArg (fun row : KeyRow => row.scopes) hissued
  refine ⟨earlier, turn, later, body, sub, htraced.turns_eq, htraced.request, ?_, hscopes, hscopes ▸ h.scope, ?_,
    htraced.unrevoked hnone⟩
  · rw [← hhash]
    exact (congrArg (fun row : KeyRow => row.hash) hissued).symm
  · intro expiresAt hexpiresAt
    apply hexpires
    rw [← hexpiresAt]
    exact congrArg (fun row : KeyRow => row.expiresAt) hissued

/-- A row that an issue returned is there as long as no later request revokes it. -/
theorem row_of_outcome {rawKey : String} {row : KeyRow} {earlier later : List KeyTurn} {turn : KeyTurn} {body : ApiKeyIn}
    {sub : Json} (hrequest : turn.request = .issue body sub)
    (houtcome : turn.outcome (KeyTable.empty.serveAll earlier) = .ok (some (rawKey, row)))
    (hlater : ∀ other ∈ later, other.request ≠ .revoke row.id) :
    (KeyTable.empty.serveAll (earlier ++ turn :: later)).keys.row row.id = some row ∧
      rawKey = generateKey turn.around.token ∧ row = issuedRow turn.around body sub row.id := by
  obtain ⟨issue, hissues, hissue⟩ := turn.issues hrequest (KeyTable.empty.serveAll earlier)
  have hvalue : issue = .ok (rawKey, row) := by
    rw [houtcome] at hissue
    cases issue with
    | error error => cases hissue
    | ok value => rw [Option.some.inj (Except.ok.inj hissue)]
  rcases hissues with ⟨-, hnone⟩ | ⟨⟨hid, hnew, hinserted⟩, hreturned⟩
  · exact absurd hvalue (hnone _)
  · obtain ⟨hraw, hrow⟩ := Prod.mk.inj (hreturned _ hvalue)
    have hnext : row.id = (KeyTable.empty.serveAll earlier).keys.next := by rw [hrow, hid]
    have hstored : (turn.serve (KeyTable.empty.serveAll earlier)).keys.row row.id = some row := by
      rw [hinserted, KeyTable.row_insert, if_pos hnext, hrow]
    refine ⟨?_, hraw, hnext ▸ hrow⟩
    rw [KeyTable.serveAll, List.foldl_append]
    show ((turn.serve (KeyTable.empty.serveAll earlier)).serveAll later).keys.row row.id = some row
    exact row_serveAll hstored hlater

/-- Over every sequence of issues and revocations of keys, whichever of their statements fail. A request is that of a service
only if its guard asks for a scope, without a token where a user would do, and the key that it presents goes back to one
issue with this scope, not expired and not revoked. And a raw key that an issue returned lets requests through at every guard
that asks for a scope of it, until it expires or a revocation of it is requested, as long as the lookup does not fail. -/
theorem keys_admit (server : Server) (py : Builtins) (d : Directory) (turns : List KeyTurn) (surroundings : Surroundings)
    (presented : Presented) (guard : Guard) :
    let result := ((authorize server py presented guard).run (Session.answer surroundings)
      (d.withKeys (KeyTable.empty.serveAll turns)).session).2
    (∀ key, result = .ok (.service key) → ∃ scope rawKey earlier turn later body sub, guard.AsksScope presented scope ∧
      presented.key = some rawKey ∧ Granted turns surroundings.time scope rawKey key earlier turn later body sub) ∧
    ∀ scope rawKey row earlier turn later body sub, turns = earlier ++ turn :: later → turn.request = .issue body sub →
      turn.outcome (KeyTable.empty.serveAll earlier) = .ok (some (rawKey, row)) →
      (∀ other ∈ later, other.request ≠ .revoke row.id) → scope ∈ body.scopes →
      (∀ expiresAt, body.expiresAt turn.around.time = some expiresAt → surroundings.time < expiresAt) →
      presented.key = some rawKey → guard.AsksScope presented scope → (∀ c, surroundings.fault c = none) →
        result = .ok (.service row.toApiKeyRow) := by
  intro result
  constructor
  · intro key hresult
    obtain ⟨scope, rawKey, hasks, husable⟩ := (ensures_run (ensures_byUsableKey server py)) key hresult
    obtain ⟨earlier, turn, later, body, sub, hgranted⟩ := husable.granted
    exact ⟨scope, rawKey, earlier, turn, later, body, sub, hasks, husable.presented, hgranted⟩
  · intro scope rawKey row earlier turn later body sub hturns hrequest houtcome hlater hscope hexpires hpresented hasks hcalm
    subst hturns
    obtain ⟨hrow, rfl, hissued⟩ := row_of_outcome hrequest houtcome hlater
    have hhash : row.hash = hashKey (generateKey turn.around.token) := congrArg (fun row : KeyRow => row.hash) hissued
    have hscopes : row.scopes = body.scopes := congrArg (fun row : KeyRow => row.scopes) hissued
    have hexpiresAt : row.expiresAt = body.expiresAt turn.around.time := congrArg (fun row : KeyRow => row.expiresAt) hissued
    have hnone : row.revokedAt = none := congrArg (fun row : KeyRow => row.revokedAt) hissued
    apply run_authorize_calm server py hcalm ⟨hpresented, ?_, ?_, hscopes ▸ hscope⟩ hasks
    · rw [← hhash]
      exact find?_withKeys hrow
    · exact validateRecord_eq_ok.mpr ⟨rfl, hnone, fun expiresAt h => hexpires expiresAt (hexpiresAt ▸ h)⟩

end FleetWorkflow.Access
