import ControlPlane.Interaction.Evaluation
import ControlPlane.Provider.FakeTables
import ControlPlane.Storage.Tables

/-!
# The fake provider

`provider/fake.rs`: the methods of `FakeProvider` as programs over the statements they run. No
transaction encloses the statements of a method, so a crash may fall between any two of them;
only `consume_fault` runs in a transaction of its own.
-/

namespace ControlPlane

open Interaction Interaction.Fallible

/-! ## Statements -/

/-- What a method of `FakeProvider` awaits, and the identity and the time it draws. -/
inductive Statement where
  | consumeFault (operation : String)
  | selectResource (hostId : HostId)
  | selectPlanId (hostId : HostId)
  | countEnabled (planId : String)
  | cheapestPlan (vcpus memory storage : Int64)
  | newUuid
  | now
  | insertResource (row : ProviderResourceRow)
  | deleteResource (hostId : HostId)

/-- What a statement replies. -/
abbrev Reply : Statement → Type
  | .consumeFault _ => Except ProviderError Bool
  | .selectResource _ => Option ProviderResourceRow
  | .selectPlanId _ => Except ProviderError String
  | .countEnabled _ => Nat
  | .cheapestPlan _ _ _ => Option PlanRow
  | .newUuid => String
  | .now => Timestamp
  | .insertResource _ => Except ProviderError Unit
  | .deleteResource _ => Except ProviderError Unit

/-- What a call draws: the `Uuid::now_v7()` and the `Timestamp::now()` of `create`. -/
structure Draw where
  uuid : String
  now : Timestamp

namespace FakeProvider

/-- `FakeProvider::consume_fault`. -/
def consumeFault (operation : String) : Session FakeDatabase ProviderError Bool := do
  Session.start
  let remaining ← Session.query fun db => db.remaining operation
  if remaining = 0 then
    Session.commit
    return false
  else
    Session.execute fun db =>
      ((db.decrement operation).mapError .transient).map fun db' => ((), db')
    Session.commit
    return true

/-- `SELECT plan_id FROM provider_resources WHERE host_id = ?`, which must find a row. -/
def fetchPlanId (db : FakeDatabase) (hostId : HostId) : Except ProviderError String :=
  match db.resourceRow hostId with
  | some row => .ok row.planId
  | none =>
    .error (.transient "no rows returned by a query that expected to return at least one row")

/-- The end of a statement that commits by itself. -/
def written (db : FakeDatabase) :
    Except String FakeDatabase → Except ProviderError Unit × FakeDatabase
  | .ok db' => (.ok (), db')
  | .error text => (.error (.transient text), db)

/-- A statement, done. -/
def reply (draw : Draw) (db : FakeDatabase) :
    (statement : Statement) → Reply statement × FakeDatabase
  | .consumeFault operation => (consumeFault operation).perform db
  | .selectResource hostId => (db.resourceRow hostId, db)
  | .selectPlanId hostId => (fetchPlanId db hostId, db)
  | .countEnabled planId => (db.countEnabled planId, db)
  | .cheapestPlan vcpus memory storage => (db.cheapestPlan vcpus memory storage, db)
  | .newUuid => (draw.uuid, db)
  | .now => (draw.now, db)
  | .insertResource row => written db (db.insertResource row)
  | .deleteResource hostId => written db (db.deleteResource hostId)

/-! ## Conversions -/

/-- `lifecycle_from_db`. -/
def lifecycleFromDb (value : String) : Except ProviderError ProviderLifecycle :=
  if value = "provisioning" then .ok .provisioning
  else if value = "ready" then .ok .ready
  else if value = "deleting" then .ok .deleting
  else .error (.transient s!"unknown fake provider lifecycle {value.quote}")

/-- A row of `provider_resources` as a `ProviderResource`. -/
def resourceFromRow (row : ProviderResourceRow) : Except ProviderError ProviderResource := do
  return { id := row.id, hostId := row.hostId, lifecycle := ← lifecycleFromDb row.lifecycle }

/-- `i64::try_from` on a required amount. -/
def requirement (value : UInt64) (message : String) : Except ProviderError Int64 :=
  if value.toNat < 2 ^ 63 then .ok (Int64.ofNat value.toNat) else .error (.definitive message)

/-- `u32::try_from` on a column. The text is that of a `TryFromIntError`, which std does not
    document. -/
def u32TryFrom (value : Int64) : Except ProviderError UInt32 :=
  if 0 ≤ value.toInt ∧ value.toInt < 2 ^ 32 then .ok (UInt32.ofNat value.toInt.toNat)
  else .error (.transient "out of range integral type conversion attempted")

/-- `u64::try_from` on a column. -/
def u64TryFrom (value : Int64) : Except ProviderError UInt64 :=
  if 0 ≤ value.toInt then .ok (UInt64.ofNat value.toInt.toNat)
  else .error (.transient "out of range integral type conversion attempted")

/-- A row of `plans` as a `Plan`. -/
def planFromRow (row : PlanRow) : Except ProviderError Plan := do
  return {
    id := row.id
    resources :=
      { vcpus := ← u32TryFrom row.vcpus
        memoryBytes := ← u64TryFrom row.memoryBytes
        storageBytes := ← u64TryFrom row.storageBytes } }

/-! ## Methods -/

/-- A method of `FakeProvider`. -/
abbrev Method := Fallible Statement Reply ProviderError

def faultCreateDefinitive : String := "create_definitive_failure"

def faultCreateTransient : String := "create_transient_failure"

def faultCreateResponseLoss : String := "create_response_loss"

def faultDeleteTransient : String := "delete_transient_failure"

def faultDeleteResponseLoss : String := "delete_response_loss"

def faultObserveTransient : String := "observe_transient_failure"

/-- Await `consume_fault`. -/
def faultFires (operation : String) : Method Bool :=
  attempt (Program.perform (Statement.consumeFault operation))

/-- `FakeProvider::resource_by_host`. -/
def resourceByHost (hostId : HostId) : Method (Option ProviderResource) := do
  match ← ask (Statement.selectResource hostId) with
  | none => return none
  | some row =>
    let resource ← attempt (.done (resourceFromRow row))
    return some resource

/-- `FakeProvider::select_plan`. -/
def selectPlan (requirements : HostResources) : Method (Option Plan) := do
  let memory ← attempt (.done
    (requirement requirements.memoryBytes "memory requirement exceeds SQLite range"))
  let storage ← attempt (.done
    (requirement requirements.storageBytes "storage requirement exceeds SQLite range"))
  match ← ask (Statement.cheapestPlan (fromU32 requirements.vcpus) memory storage) with
  | none => return none
  | some row =>
    let plan ← attempt (.done (planFromRow row))
    return some plan

/-- `FakeProvider::observe`. -/
def observe (hostId : HostId) : Method ProviderObservation := do
  if ← faultFires faultObserveTransient then
    throw (.transient "injected observation failure")
  else
    match ← resourceByHost hostId with
    | none => return .absent
    | some resource => return .present resource

/-- The end of `FakeProvider::create`: a Host without a resource gets one. -/
def insertNew (hostId : HostId) (planId : String) : Method CreateOutcome := do
  let planExists ← ask (Statement.countEnabled planId)
  if planExists ≠ 1 then
    throw (.definitive s!"unknown or disabled provider plan {planId.quote}")
  else
    let loseResponse ← faultFires faultCreateResponseLoss
    let uuid ← ask Statement.newUuid
    let resource : ProviderResource := { id := "fake-" ++ uuid, hostId, lifecycle := .ready }
    let createdAt ← ask Statement.now
    attempt (Program.perform (Statement.insertResource
      { id := resource.id, hostId := resource.hostId, planId, lifecycle := "ready", createdAt }))
    return if loseResponse then .outcomeUnknown else .created resource

/-- `FakeProvider::create`. -/
def create (hostId : HostId) (planId : String) : Method CreateOutcome := do
  if ← faultFires faultCreateDefinitive then
    throw (.definitive "injected definitive create failure")
  else if ← faultFires faultCreateTransient then
    throw (.transient "injected transient create failure")
  else
    match ← resourceByHost hostId with
    | some existing =>
      let existingPlan ← attempt (Program.perform (Statement.selectPlanId hostId))
      if existingPlan ≠ planId then
        throw (.definitive
          s!"Host {hostId.text} already owns a provider resource with plan {existingPlan.quote}, not {planId.quote}")
      else
        return .created existing
    | none => insertNew hostId planId

/-- `FakeProvider::delete`. -/
def delete (hostId : HostId) : Method DeleteOutcome := do
  if ← faultFires faultDeleteTransient then
    throw (.transient "injected transient delete failure")
  else
    let loseResponse ← faultFires faultDeleteResponseLoss
    attempt (Program.perform (Statement.deleteResource hostId))
    return if loseResponse then .outcomeUnknown else .deleted

/-- The method a call of `HostProvider` runs. -/
def method : (call : ProviderCall) → Program Statement Reply (ProviderAnswer call)
  | .selectPlan requirements => (selectPlan requirements).run
  | .observe hostId => (observe hostId).run
  | .create hostId planId => (create hostId planId).run
  | .delete hostId => (delete hostId).run

/-- A call, done: its answer and the database it leaves. -/
def perform (draw : Draw) (call : ProviderCall) (db : FakeDatabase) :
    ProviderAnswer call × FakeDatabase :=
  (method call).evaluate (reply draw) db

/-! ## Start -/

/-- The plans of `seed_catalog`. -/
def seedPlans : List PlanRow :=
  [ { id := "fake-2c-4g-40g", vcpus := 2, memoryBytes := (4 : Int64) <<< (30 : Int64),
      storageBytes := (40 : Int64) <<< (30 : Int64), hourlyPriceMicros := 10000, enabled := 1 },
    { id := "fake-4c-8g-80g", vcpus := 4, memoryBytes := (8 : Int64) <<< (30 : Int64),
      storageBytes := (80 : Int64) <<< (30 : Int64), hourlyPriceMicros := 20000, enabled := 1 },
    { id := "fake-8c-16g-160g", vcpus := 8, memoryBytes := (16 : Int64) <<< (30 : Int64),
      storageBytes := (160 : Int64) <<< (30 : Int64), hourlyPriceMicros := 40000, enabled := 1 } ]

/-- `seed_catalog`, run by `FakeProvider::connect`. -/
def seedCatalog (db : FakeDatabase) : Except String FakeDatabase :=
  seedPlans.foldlM FakeDatabase.upsertPlan db

end FakeProvider

end ControlPlane
