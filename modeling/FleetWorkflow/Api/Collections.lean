import FleetWorkflow.Flow.Fallible
import FleetWorkflow.Python.Value
import FleetWorkflow.Store.Table

/-!
# Collections

Administration of the collections table. A collection carries the sensitivity and the policy under
which documents are ingested into it; both may be changed at any time.
-/

namespace FleetWorkflow.Api

open Python Store

/-- The body of a collection request. -/
structure CollectionIn where
  name : String
  deptId : Option ℕ
  sensitivity : String
  retentionDays : Option ℕ
  piiPolicy : String
  retention_pos : ∀ days ∈ retentionDays, 0 < days

/-- A row of `collections`. -/
structure Collection where
  id : ℕ
  name : String
  deptId : Option ℕ
  sensitivity : String
  retentionDays : Option ℕ
  piiPolicy : String

/-- The collections table. -/
abbrev CollectionTable := Table Collection Collection.id

/-- `_VALID_SENSITIVITY`. -/
def collectionSensitivities : List String := ["public", "internal", "confidential", "pii"]

/-- `_VALID_PII_POLICY`. -/
def collectionPolicies : List String := ["redact", "block", "allow-local-only"]

/-- `_validate(body)`. -/
def validateCollection (body : CollectionIn) : Except Exc Unit :=
  if body.sensitivity ∉ collectionSensitivities then .error ⟨.http 422, "unknown sensitivity: " ++ body.sensitivity⟩
  else if body.piiPolicy ∉ collectionPolicies then .error ⟨.http 422, "unknown pii_policy: " ++ body.piiPolicy⟩
  else if body.sensitivity = "pii" ∧ body.piiPolicy = "redact" then
    .error ⟨.http 422, "pii collections must use pii_policy 'block' or 'allow-local-only', not 'redact'"⟩
  else .ok ()

/-- The row of a body. -/
def CollectionIn.row (body : CollectionIn) (id : ℕ) : Collection :=
  ⟨id, body.name, body.deptId, body.sensitivity, body.retentionDays, body.piiPolicy⟩

@[simp] theorem CollectionIn.row_id (body : CollectionIn) (id : ℕ) : (body.row id).id = id := rfl

/-- The constraints of the table refuse a row: its department is unknown, or another row has its name. -/
def violates (departments : List ℕ) (table : CollectionTable) (row : Collection) : Bool :=
  row.deptId.any (· ∉ departments) || table.rows.any fun other => other.id ≠ row.id && other.name = row.name

variable (departments : List ℕ)

/-- `create_collection(body)`. -/
def createCollection (table : CollectionTable) (body : CollectionIn) : Except Exc CollectionTable := do
  validateCollection body
  if table.rows.any fun row => row.name = body.name then throw ⟨.http 409, "collection name already exists"⟩
  if violates departments table (body.row table.next) then throw ⟨.integrityError, "IntegrityError"⟩
  return table.insert (body.row table.next) (body.row_id _)

/-- `update_collection(collection_id, body)`. -/
def updateCollection (table : CollectionTable) (collectionId : ℕ) (body : CollectionIn) :
    Except Exc CollectionTable := do
  validateCollection body
  match table.row collectionId with
  | none => throw ⟨.http 404, "collection not found"⟩
  | some _ =>
    if violates departments table (body.row collectionId) then throw ⟨.integrityError, "IntegrityError"⟩
    return table.update collectionId (fun row => body.row row.id) fun row => body.row_id row.id

end FleetWorkflow.Api
