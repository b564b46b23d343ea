import ControlPlane.Domain
import ControlPlane.Error

/-!
# The Control Plane database

The two `STRICT` tables of `migrations/control-plane/0001_initial.sql`, their constraints, and
the statements `storage.rs` runs on them. An `INTEGER` column is an `Int64`. A `TEXT` column
that holds a printed id, timestamp or JSON condition list is carried as the value it was
printed from; `phase` keeps its text, because its decoder is the daemon's own.

A `Database` carries the constraints it satisfies, so a state SQLite would refuse cannot be
built: a statement that would break a constraint fails and changes nothing.
-/

namespace ControlPlane

/-- A row of `host_claims`. -/
structure HostClaimRow where
  id : HostClaimId
  generation : Int64
  createdAt : Timestamp
  deletionTimestamp : Option Timestamp
  vcpus : Int64
  memoryBytes : Int64
  storageBytes : Int64
  observedGeneration : Int64
  conditionsJson : List Condition
  retryAttempt : Int64
  nextReconcileAtUnixMs : Option Int64
  lastErrorKind : Option String
  lastErrorMessage : Option String
  deriving DecidableEq, Repr

/-- A row of `hosts`. -/
structure HostRow where
  id : HostId
  claimId : HostClaimId
  createdAt : Timestamp
  vcpus : Int64
  memoryBytes : Int64
  storageBytes : Int64
  providerPlanId : String
  phase : String
  providerResourceId : Option String
  observedAt : Option Timestamp
  conditionsJson : List Condition
  retryAttempt : Int64
  nextReconcileAtUnixMs : Option Int64
  lastErrorKind : Option String
  lastErrorMessage : Option String
  deriving DecidableEq, Repr

/-- The `CHECK` constraints of `host_claims`. -/
def HostClaimRow.Checks (row : HostClaimRow) : Prop :=
  1 ≤ row.generation ∧ 0 < row.vcpus ∧ 0 < row.memoryBytes ∧ 0 < row.storageBytes ∧
    0 ≤ row.observedGeneration ∧ 0 ≤ row.retryAttempt

instance (row : HostClaimRow) : Decidable row.Checks :=
  inferInstanceAs (Decidable (_ ∧ _))

/-- `length(..)` of a text in SQLite: the characters before the first NUL. -/
def textLength (text : String) : Nat :=
  (text.toList.takeWhile fun char => char ≠ Char.ofNat 0).length

/-- The `CHECK` constraints of `hosts`. -/
def HostRow.Checks (row : HostRow) : Prop :=
  0 < row.vcpus ∧ 0 < row.memoryBytes ∧ 0 < row.storageBytes ∧
    0 < textLength row.providerPlanId ∧
    row.phase ∈ ["pending", "provisioning", "ready", "deleting", "failed"] ∧
    0 ≤ row.retryAttempt

instance (row : HostRow) : Decidable row.Checks :=
  inferInstanceAs (Decidable (_ ∧ _))

/-- Every constraint of the schema: primary keys, `UNIQUE`, `REFERENCES` and `CHECK`. -/
structure Schema (hostClaims : List HostClaimRow) (hosts : List HostRow) : Prop where
  claimIds : (hostClaims.map (·.id)).Nodup
  claimChecks : ∀ row ∈ hostClaims, row.Checks
  hostIds : (hosts.map (·.id)).Nodup
  hostClaimIds : (hosts.map (·.claimId)).Nodup
  hostReferences : ∀ row ∈ hosts, row.claimId ∈ hostClaims.map (·.id)
  providerResourceIds : (hosts.filterMap (·.providerResourceId)).Nodup
  hostChecks : ∀ row ∈ hosts, row.Checks

instance (hostClaims : List HostClaimRow) (hosts : List HostRow) :
    Decidable (Schema hostClaims hosts) :=
  decidable_of_iff
    ((hostClaims.map (·.id)).Nodup ∧ (∀ row ∈ hostClaims, row.Checks) ∧
      (hosts.map (·.id)).Nodup ∧ (hosts.map (·.claimId)).Nodup ∧
      (∀ row ∈ hosts, row.claimId ∈ hostClaims.map (·.id)) ∧
      (hosts.filterMap (·.providerResourceId)).Nodup ∧ (∀ row ∈ hosts, row.Checks))
    ⟨fun ⟨a, b, c, d, e, f, g⟩ => ⟨a, b, c, d, e, f, g⟩,
      fun ⟨a, b, c, d, e, f, g⟩ => ⟨a, b, c, d, e, f, g⟩⟩

/-- The stored state: rows in insertion order, with the constraints they satisfy. -/
structure Database where
  hostClaims : List HostClaimRow
  hosts : List HostRow
  schema : Schema hostClaims hosts
  deriving DecidableEq

namespace Database

/-- A freshly migrated database. -/
def empty : Database := ⟨[], [], by decide⟩

/-- The end of a writing statement: the new tables if they satisfy the schema, else an error. -/
def store (hostClaims : List HostClaimRow) (hosts : List HostRow) : Except AppError Database :=
  if schema : Schema hostClaims hosts then .ok ⟨hostClaims, hosts, schema⟩
  else .error (.internal "constraint failed")

/-- `INSERT INTO host_claims`. -/
def insertClaim (db : Database) (row : HostClaimRow) : Except AppError Database :=
  store (db.hostClaims ++ [row]) db.hosts

/-- `UPDATE host_claims SET .. WHERE ..`: the rows affected and the new state. -/
def updateClaims (db : Database) (selected : HostClaimRow → Bool)
    (set : HostClaimRow → HostClaimRow) : Except AppError (Nat × Database) :=
  (store (db.hostClaims.map fun row => if selected row then set row else row) db.hosts).map
    fun db' => (db.hostClaims.countP selected, db')

/-- `DELETE FROM host_claims WHERE id = ?`, with `ON DELETE CASCADE` on `hosts`. -/
def deleteClaim (db : Database) (id : HostClaimId) : Except AppError (Nat × Database) :=
  (store (db.hostClaims.filter fun row => row.id ≠ id)
      (db.hosts.filter fun row => row.claimId ≠ id)).map
    fun db' => (db.hostClaims.countP fun row => row.id = id, db')

/-- `INSERT INTO hosts .. ON CONFLICT(claim_id) DO NOTHING`. -/
def insertHost (db : Database) (row : HostRow) : Except AppError (Nat × Database) :=
  if db.hosts.any fun other => other.claimId = row.claimId then .ok (0, db)
  else (store db.hostClaims (db.hosts ++ [row])).map fun db' => (1, db')

/-- `UPDATE hosts SET .. WHERE id = ?`. -/
def updateHost (db : Database) (id : HostId) (set : HostRow → HostRow) :
    Except AppError (Nat × Database) :=
  (store db.hostClaims (db.hosts.map fun row => if row.id = id then set row else row)).map
    fun db' => (db.hosts.countP fun row => row.id = id, db')

end Database

/-! ## Column conversions -/

/-- `to_i64`. -/
def toI64 (value : UInt64) (field : String) : Except AppError Int64 :=
  if value.toNat < 2 ^ 63 then .ok (Int64.ofNat value.toNat)
  else .error (.invalidArgument s!"{field} must not exceed {Int64.maxValue}")

/-- `to_u64`. -/
def toU64 (value : Int64) (field : String) : Except String UInt64 :=
  if 0 ≤ value.toInt then .ok (UInt64.ofNat value.toInt.toNat)
  else .error s!"invalid negative {field}: {value}"

/-- `to_u32`. -/
def toU32 (value : Int64) (field : String) : Except String UInt32 :=
  if 0 ≤ value.toInt ∧ value.toInt < 2 ^ 32 then .ok (UInt32.ofNat value.toInt.toNat)
  else .error s!"invalid {field}: {value}"

/-- `i64::from` on a `u32`. -/
def fromU32 (value : UInt32) : Int64 :=
  Int64.ofNat value.toNat

/-- `host_phase_to_db`. -/
def hostPhaseToDb : HostPhase → String
  | .pending => "pending"
  | .provisioning => "provisioning"
  | .ready => "ready"
  | .deleting => "deleting"
  | .failed => "failed"

/-- `host_phase_from_db`. -/
def hostPhaseFromDb (value : String) : Except String HostPhase :=
  if value = "pending" then .ok .pending
  else if value = "provisioning" then .ok .provisioning
  else if value = "ready" then .ok .ready
  else if value = "deleting" then .ok .deleting
  else if value = "failed" then .ok .failed
  else .error s!"unknown Host phase {value.quote}"

/-! ## Row decoders -/

/-- A row of `SELECT c.*, h.id AS host_id FROM host_claims LEFT JOIN hosts`. -/
structure JoinedClaimRow where
  claim : HostClaimRow
  hostId : Option HostId

/-- `claim_record_from_row`. -/
def claimRecordFromRow (row : JoinedClaimRow) : Except String HostClaimRecord := do
  return {
    resource :=
      { id := row.claim.id
        generation := ← toU64 row.claim.generation "generation"
        createdAt := row.claim.createdAt
        deletionTimestamp := row.claim.deletionTimestamp
        spec :=
          { resources :=
              { vcpus := ← toU32 row.claim.vcpus "vcpus"
                memoryBytes := ← toU64 row.claim.memoryBytes "memory_bytes"
                storageBytes := ← toU64 row.claim.storageBytes "storage_bytes" } }
        status :=
          { observedGeneration := ← toU64 row.claim.observedGeneration "observed_generation"
            hostId := row.hostId
            conditions := row.claim.conditionsJson } }
    retry :=
      { attempt := ← toU32 row.claim.retryAttempt "retry_attempt"
        nextReconcileAtUnixMs := row.claim.nextReconcileAtUnixMs
        lastErrorKind := row.claim.lastErrorKind
        lastErrorMessage := row.claim.lastErrorMessage } }

/-- `host_record_from_row`. -/
def hostRecordFromRow (row : HostRow) : Except String HostRecord := do
  return {
    resource :=
      { id := row.id
        claimId := row.claimId
        createdAt := row.createdAt
        allocatableResources :=
          { vcpus := ← toU32 row.vcpus "vcpus"
            memoryBytes := ← toU64 row.memoryBytes "memory_bytes"
            storageBytes := ← toU64 row.storageBytes "storage_bytes" }
        status :=
          { phase := ← hostPhaseFromDb row.phase
            providerResourceId := row.providerResourceId
            observedAt := row.observedAt
            conditions := row.conditionsJson } }
    providerPlanId := row.providerPlanId
    retry :=
      { attempt := ← toU32 row.retryAttempt "retry_attempt"
        nextReconcileAtUnixMs := row.nextReconcileAtUnixMs
        lastErrorKind := row.lastErrorKind
        lastErrorMessage := row.lastErrorMessage } }

end ControlPlane
