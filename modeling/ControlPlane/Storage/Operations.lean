import ControlPlane.Storage.Tables

/-!
# Storage operations

`Storage` of `storage.rs`, one definition a method. Each call is atomic: the pool holds one
connection, and a transaction that is dropped on an error rolls back, so an operation is a
function from the database to its answer together with the state it leaves, or an error and
no change.

Identities and clock readings the source draws inside a method are arguments here.
-/

namespace ControlPlane

namespace Storage

/-- Run an operation: on an error the database is as before. -/
def run {α : Type} (operation : Database → Except AppError (α × Database)) (db : Database) :
    Except AppError α × Database :=
  match operation db with
  | .ok (value, db') => (.ok value, db')
  | .error error => (.error error, db)

/-! ## Validation -/

/-- `validate_resources`. -/
def validateResources (resources : HostResources) : Except AppError Unit := do
  if resources.vcpus = 0 then
    throw (.invalidArgument "vcpus must be greater than zero")
  if resources.memoryBytes = 0 then
    throw (.invalidArgument "memory_bytes must be greater than zero")
  if resources.storageBytes = 0 then
    throw (.invalidArgument "storage_bytes must be greater than zero")
  let _ ← toI64 resources.memoryBytes "memory_bytes"
  let _ ← toI64 resources.storageBytes "storage_bytes"
  return ()

/-- `validate_host_assignment`. -/
def validateHostAssignment (host : HostRecord) (providerPlanId : String)
    (resources : HostResources) : Except AppError Unit :=
  if host.providerPlanId ≠ providerPlanId ∨ host.resource.allocatableResources ≠ resources then
    .error (.conflict "HostClaim" host.resource.claimId.text
      s!"the existing Host assignment differs from the resolved provider plan or resources (Host {host.resource.id.text})")
  else .ok ()

/-! ## Queries -/

/-- `SELECT * FROM hosts WHERE claim_id = ?`, `fetch_host_for_claim_row`. -/
def fetchHostForClaimRow (db : Database) (claimId : HostClaimId) : Option HostRow :=
  db.hosts.find? fun row => row.claimId = claimId

/-- The `LEFT JOIN` of a claim row with its Host's id. -/
def joinHost (db : Database) (claim : HostClaimRow) : JoinedClaimRow :=
  { claim, hostId := (fetchHostForClaimRow db claim.id).map (·.id) }

/-- `fetch_claim_row`. -/
def fetchClaimRow (db : Database) (id : HostClaimId) : Option JoinedClaimRow :=
  (db.hostClaims.find? fun row => row.id = id).map (joinHost db)

/-- `ORDER BY created_at ASC, id ASC`: both columns are text and compared as text. -/
def listedBefore (leftCreatedAt : Timestamp) (leftId : String) (rightCreatedAt : Timestamp)
    (rightId : String) : Prop :=
  leftCreatedAt.text < rightCreatedAt.text ∨
    leftCreatedAt.text = rightCreatedAt.text ∧ leftId ≤ rightId

instance (leftCreatedAt : Timestamp) (leftId : String) (rightCreatedAt : Timestamp)
    (rightId : String) :
    Decidable (listedBefore leftCreatedAt leftId rightCreatedAt rightId) :=
  inferInstanceAs (Decidable (_ ∨ _))

/-- `Storage::get_claim`. -/
def getClaim (db : Database) (id : HostClaimId) : Except AppError HostClaimRecord :=
  match fetchClaimRow db id with
  | none => .error (.notFound "HostClaim" id.text)
  | some row => internal (claimRecordFromRow row)

/-- The rows of `host_claims` in the order `list_claims` asks for. -/
def orderedClaims (db : Database) : List HostClaimRow :=
  db.hostClaims.insertionSort fun left right =>
    listedBefore left.createdAt left.id.text right.createdAt right.id.text

/-- The rows of `hosts` in the order `list_hosts` asks for. -/
def orderedHosts (db : Database) : List HostRow :=
  db.hosts.insertionSort fun left right =>
    listedBefore left.createdAt left.id.text right.createdAt right.id.text

/-- `Storage::list_claims`. -/
def listClaims (db : Database) : Except AppError (List HostClaimRecord) :=
  internal ((orderedClaims db).mapM fun row => claimRecordFromRow (joinHost db row))

/-- `Storage::get_host`. -/
def getHost (db : Database) (id : HostId) : Except AppError HostRecord :=
  match db.hosts.find? fun row => row.id = id with
  | none => .error (.notFound "Host" id.text)
  | some row => internal (hostRecordFromRow row)

/-- `Storage::list_hosts`. -/
def listHosts (db : Database) : Except AppError (List HostRecord) :=
  internal ((orderedHosts db).mapM hostRecordFromRow)

/-! ## Mutators -/

/-- The row `create_claim` inserts. -/
def newClaimRow (claim : HostClaim) : Except AppError HostClaimRow := do
  return {
    id := claim.id
    generation := ← toI64 claim.generation "generation"
    createdAt := claim.createdAt
    deletionTimestamp := none
    vcpus := fromU32 claim.spec.resources.vcpus
    memoryBytes := ← toI64 claim.spec.resources.memoryBytes "memory_bytes"
    storageBytes := ← toI64 claim.spec.resources.storageBytes "storage_bytes"
    observedGeneration := ← toI64 claim.status.observedGeneration "observed_generation"
    conditionsJson := claim.status.conditions
    retryAttempt := 0
    nextReconcileAtUnixMs := none
    lastErrorKind := none
    lastErrorMessage := none }

/-- `Storage::create_claim`. -/
def createClaim (id : HostClaimId) (spec : HostClaimSpec) (now : Timestamp) (db : Database) :
    Except AppError (HostClaim × Database) := do
  validateResources spec.resources
  match fetchClaimRow db id with
  | some row =>
    let existing ← internal (claimRecordFromRow row)
    if existing.resource.spec = spec then
      return (existing.resource, db)
    throw (.conflict "HostClaim" id.text "the existing claim has a different spec")
  | none =>
    let claim := initialClaim id spec now
    let db ← db.insertClaim (← newClaimRow claim)
    return (claim, db)

/-- The record `mark_claim_deleting` stores for a claim that is not being deleted yet. -/
def requestDeletion (record : HostClaimRecord) (now : Timestamp) : HostClaimRecord :=
  { record with
    resource.deletionTimestamp := some now
    resource.status.observedGeneration := record.resource.generation
    retry := RetryState.default }.setCondition
      (newCondition "Ready" .false "DeletionRequested" "The HostClaim is being released."
        record.resource.generation now)

/-- `Storage::mark_claim_deleting`. -/
def markClaimDeleting (id : HostClaimId) (now : Timestamp) (db : Database) :
    Except AppError (HostClaim × Database) := do
  match fetchClaimRow db id with
  | none => throw (.notFound "HostClaim" id.text)
  | some row =>
    let record ← internal (claimRecordFromRow row)
    if record.resource.deletionTimestamp.isNone then
      let record := requestDeletion record now
      let observedGeneration ←
        toI64 record.resource.status.observedGeneration "observed_generation"
      let (rowsAffected, db) ← db.updateClaims (fun row => row.id = id) fun row =>
        { row with
          deletionTimestamp := record.resource.deletionTimestamp
          observedGeneration := observedGeneration
          conditionsJson := record.resource.status.conditions
          retryAttempt := 0
          nextReconcileAtUnixMs := none
          lastErrorKind := none
          lastErrorMessage := none }
      if rowsAffected ≠ 1 then
        throw (.internal "HostClaim disappeared while marking deletion")
      return (record.resource, db)
    return (record.resource, db)

/-- `Storage::save_claim_status`: `false` means a concurrent mutation superseded the record. -/
def saveClaimStatus (record : HostClaimRecord) (db : Database) :
    Except AppError (Bool × Database) := do
  let observedGeneration ←
    toI64 record.resource.status.observedGeneration "observed_generation"
  let (rowsAffected, db) ← db.updateClaims
    (fun row => row.id = record.resource.id ∧
      row.deletionTimestamp = record.resource.deletionTimestamp)
    fun row =>
      { row with
        observedGeneration := observedGeneration
        conditionsJson := record.resource.status.conditions
        retryAttempt := fromU32 record.retry.attempt
        nextReconcileAtUnixMs := record.retry.nextReconcileAtUnixMs
        lastErrorKind := record.retry.lastErrorKind
        lastErrorMessage := record.retry.lastErrorMessage }
  return (rowsAffected = 1, db)

/-- The row `ensure_host` inserts. -/
def newHostRow (host : Host) (providerPlanId : String) : Except AppError HostRow := do
  return {
    id := host.id
    claimId := host.claimId
    createdAt := host.createdAt
    vcpus := fromU32 host.allocatableResources.vcpus
    memoryBytes := ← toI64 host.allocatableResources.memoryBytes "memory_bytes"
    storageBytes := ← toI64 host.allocatableResources.storageBytes "storage_bytes"
    providerPlanId := providerPlanId
    phase := "pending"
    providerResourceId := none
    observedAt := none
    conditionsJson := host.status.conditions
    retryAttempt := 0
    nextReconcileAtUnixMs := none
    lastErrorKind := none
    lastErrorMessage := none }

/-- The claim record `ensure_host` stores beside a new Host. -/
def assignHost (claim : HostClaimRecord) (hostId : HostId) (now : Timestamp) : HostClaimRecord :=
  let generation := claim.resource.generation
  let assigned :=
    { claim with
      resource.status.hostId := some hostId
      resource.status.observedGeneration := generation
      retry := RetryState.default }
  ((assigned.setCondition
      (newCondition "Accepted" .true "RequirementsValid"
        "The current provider policy can satisfy this claim." generation now)).setCondition
      (newCondition "Bound" .true "HostAssigned" s!"Host {hostId.text} is assigned."
        generation now)).setCondition
      (newCondition "Ready" .false "HostNotReady" "The assigned Host is not Ready yet."
        generation now)

/-- `Storage::ensure_host`; `hostId` is the `HostId::new()` of the call. -/
def ensureHost (claimId : HostClaimId) (providerPlanId : String) (resources : HostResources)
    (hostId : HostId) (now : Timestamp) (db : Database) :
    Except AppError (HostRecord × Database) := do
  validateResources resources
  match fetchClaimRow db claimId with
  | none => throw (.notFound "HostClaim" claimId.text)
  | some row =>
    let claim ← internal (claimRecordFromRow row)
    if claim.resource.deletionTimestamp.isSome then
      throw (.conflict "HostClaim" claimId.text "the claim is being deleted")
    if let some row := fetchHostForClaimRow db claimId then
      let host ← internal (hostRecordFromRow row)
      validateHostAssignment host providerPlanId resources
      return (host, db)
    let host := initialHost hostId claimId resources now
    let (inserted, db) ← db.insertHost (← newHostRow host providerPlanId)
    let db ←
      if inserted = 1 then do
        let claim := assignHost claim host.id now
        let observedGeneration ←
          toI64 claim.resource.status.observedGeneration "observed_generation"
        let (updated, db) ← db.updateClaims
          (fun row => row.id = claimId ∧ row.deletionTimestamp = none)
          fun row =>
            { row with
              observedGeneration := observedGeneration
              conditionsJson := claim.resource.status.conditions
              retryAttempt := 0
              nextReconcileAtUnixMs := none
              lastErrorKind := none
              lastErrorMessage := none }
        if updated ≠ 1 then
          throw (.conflict "HostClaim" claimId.text "the claim changed while assigning a Host")
        pure db
      else pure db
    match fetchHostForClaimRow db claimId with
    | none => throw (.internal "Host insert completed without a Host row")
    | some row =>
      let host ← internal (hostRecordFromRow row)
      validateHostAssignment host providerPlanId resources
      return (host, db)

/-- `Storage::save_host`. -/
def saveHost (record : HostRecord) (db : Database) : Except AppError (Unit × Database) := do
  let (rowsAffected, db) ← db.updateHost record.resource.id fun row =>
    { row with
      phase := hostPhaseToDb record.resource.status.phase
      providerResourceId := record.resource.status.providerResourceId
      observedAt := record.resource.status.observedAt
      conditionsJson := record.resource.status.conditions
      retryAttempt := fromU32 record.retry.attempt
      nextReconcileAtUnixMs := record.retry.nextReconcileAtUnixMs
      lastErrorKind := record.retry.lastErrorKind
      lastErrorMessage := record.retry.lastErrorMessage }
  if rowsAffected = 0 then
    throw (.notFound "Host" record.resource.id.text)
  return ((), db)

/-- `Storage::finalize_claim`. -/
def finalizeClaim (claimId : HostClaimId) (db : Database) : Except AppError (Unit × Database) := do
  let (rowsAffected, db) ← db.deleteClaim claimId
  if rowsAffected = 0 then
    throw (.notFound "HostClaim" claimId.text)
  return ((), db)

end Storage

end ControlPlane
