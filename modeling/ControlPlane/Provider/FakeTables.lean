import ControlPlane.Interaction.Transaction
import ControlPlane.Provider.Model
import ControlPlane.Selection
import ControlPlane.Keyed
import Mathlib.Data.Prod.Lex
import Mathlib.Data.String.Basic

/-!
# The fake provider's database

The three `STRICT` tables of `migrations/fake-provider/0001_initial.sql`, their constraints, and
the statements `provider/fake.rs` runs on them. As in the Control Plane database, a stored state
carries the constraints it satisfies, an `INTEGER` column is an `Int64`, and a `host_id` is
carried as the id it was printed from.
-/

namespace ControlPlane

/-- A row of `plans`. -/
structure PlanRow where
  id : String
  vcpus : Int64
  memoryBytes : Int64
  storageBytes : Int64
  hourlyPriceMicros : Int64
  enabled : Int64
  deriving DecidableEq, Repr

/-- A row of `provider_resources`. -/
structure ProviderResourceRow where
  id : String
  hostId : HostId
  planId : String
  lifecycle : String
  createdAt : Timestamp
  deriving DecidableEq, Repr

/-- A row of `faults`. -/
structure FaultRow where
  operation : String
  remaining : Int64
  deriving DecidableEq, Repr

/-- The `CHECK` constraints of `plans`. -/
def PlanRow.Checks (row : PlanRow) : Prop :=
  0 < row.vcpus ∧ 0 < row.memoryBytes ∧ 0 < row.storageBytes ∧ 0 ≤ row.hourlyPriceMicros ∧
    (row.enabled = 0 ∨ row.enabled = 1)

instance PlanRow.decidableChecks (row : PlanRow) : Decidable row.Checks :=
  inferInstanceAs (Decidable (_ ∧ _))

/-- Every constraint of the schema. -/
structure FakeSchema (plans : List PlanRow) (providerResources : List ProviderResourceRow)
    (faults : List FaultRow) : Prop where
  planIds : (plans.map (·.id)).Nodup
  planChecks : ∀ row ∈ plans, row.Checks
  resourceIds : (providerResources.map (·.id)).Nodup
  hostIds : (providerResources.map (·.hostId)).Nodup
  planReferences : ∀ row ∈ providerResources, row.planId ∈ plans.map (·.id)
  lifecycles : ∀ row ∈ providerResources, row.lifecycle ∈ ["provisioning", "ready", "deleting"]
  operations : (faults.map (·.operation)).Nodup
  remaining : ∀ row ∈ faults, 0 ≤ row.remaining

instance FakeSchema.decidable (plans : List PlanRow) (providerResources : List ProviderResourceRow)
    (faults : List FaultRow) : Decidable (FakeSchema plans providerResources faults) :=
  decidable_of_iff
    ((plans.map (·.id)).Nodup ∧ (∀ row ∈ plans, row.Checks) ∧
      (providerResources.map (·.id)).Nodup ∧ (providerResources.map (·.hostId)).Nodup ∧
      (∀ row ∈ providerResources, row.planId ∈ plans.map (·.id)) ∧
      (∀ row ∈ providerResources, row.lifecycle ∈ ["provisioning", "ready", "deleting"]) ∧
      (faults.map (·.operation)).Nodup ∧ (∀ row ∈ faults, 0 ≤ row.remaining))
    ⟨fun ⟨a, b, c, d, e, f, g, h⟩ => ⟨a, b, c, d, e, f, g, h⟩,
      fun ⟨a, b, c, d, e, f, g, h⟩ => ⟨a, b, c, d, e, f, g, h⟩⟩

/-- The stored state of the fake provider. -/
structure FakeDatabase where
  plans : List PlanRow
  providerResources : List ProviderResourceRow
  faults : List FaultRow
  schema : FakeSchema plans providerResources faults
  deriving DecidableEq

namespace FakeDatabase

/-- A freshly migrated database. -/
def empty : FakeDatabase := ⟨[], [], [], by decide⟩

/-- The end of a writing statement: the new tables if they satisfy the schema, else an error. -/
def store (plans : List PlanRow) (providerResources : List ProviderResourceRow)
    (faults : List FaultRow) : Except String FakeDatabase :=
  if schema : FakeSchema plans providerResources faults then
    .ok ⟨plans, providerResources, faults, schema⟩
  else .error "constraint failed"

/-! ## The statements -/

/-- `SELECT remaining FROM faults WHERE operation = ?`, 0 without a row. -/
def remaining (db : FakeDatabase) (operation : String) : Int64 :=
  ((db.faults.find? fun row => row.operation = operation).map (·.remaining)).getD 0

/-- `UPDATE faults SET remaining = remaining - 1 WHERE operation = ?`. -/
def decrement (db : FakeDatabase) (operation : String) : Except String FakeDatabase :=
  store db.plans db.providerResources
    (db.faults.map fun row =>
      if row.operation = operation then { row with remaining := row.remaining - 1 } else row)

/-- `SELECT .. FROM provider_resources WHERE host_id = ?`. -/
def resourceRow (db : FakeDatabase) (hostId : HostId) : Option ProviderResourceRow :=
  db.providerResources.find? fun row => row.hostId = hostId

/-- `SELECT COUNT(*) FROM plans WHERE id = ? AND enabled = 1`. -/
def countEnabled (db : FakeDatabase) (planId : String) : Nat :=
  db.plans.countP fun row => row.id = planId ∧ row.enabled = 1

/-- `INSERT INTO provider_resources`. -/
def insertResource (db : FakeDatabase) (row : ProviderResourceRow) : Except String FakeDatabase :=
  store db.plans (db.providerResources ++ [row]) db.faults

/-- `DELETE FROM provider_resources WHERE host_id = ?`. -/
def deleteResource (db : FakeDatabase) (hostId : HostId) : Except String FakeDatabase :=
  store db.plans (db.providerResources.filter fun row => row.hostId ≠ hostId) db.faults

/-- `INSERT INTO plans .. ON CONFLICT(id) DO UPDATE SET ..`. -/
def upsertPlan (db : FakeDatabase) (plan : PlanRow) : Except String FakeDatabase :=
  store
    (if db.plans.any fun row => row.id = plan.id then
      db.plans.map fun row => if row.id = plan.id then plan else row
    else db.plans ++ [plan])
    db.providerResources db.faults

end FakeDatabase

/-- `ORDER BY hourly_price_micros, memory_bytes, storage_bytes, vcpus, id`. -/
def PlanRow.order (row : PlanRow) : Int ×ₗ Int ×ₗ Int ×ₗ Int ×ₗ String :=
  toLex (row.hourlyPriceMicros.toInt, toLex (row.memoryBytes.toInt,
    toLex (row.storageBytes.toInt, toLex (row.vcpus.toInt, row.id))))

/-- `SELECT .. FROM plans WHERE enabled = 1 AND .. ORDER BY .. LIMIT 1`. -/
def FakeDatabase.cheapestPlan (db : FakeDatabase) (vcpus memory storage : Int64) :
    Option PlanRow :=
  Selection.first PlanRow.order <| db.plans.filter fun row =>
    row.enabled = 1 ∧ vcpus ≤ row.vcpus ∧ memory ≤ row.memoryBytes ∧ storage ≤ row.storageBytes

/-! ## What the statements do -/

namespace FakeDatabase

variable {db db' : FakeDatabase} {operation : String} {hostId : HostId}

@[ext] theorem ext (hplans : db.plans = db'.plans)
    (hresources : db.providerResources = db'.providerResources)
    (hfaults : db.faults = db'.faults) : db = db' := by
  cases db
  cases db'
  simp_all

theorem store_eq_ok {plans : List PlanRow} {providerResources : List ProviderResourceRow}
    {faults : List FaultRow} :
    store plans providerResources faults = .ok db ↔
      db.plans = plans ∧ db.providerResources = providerResources ∧ db.faults = faults := by
  unfold store
  split
  · rename_i schema
    rw [Except.ok.injEq]
    constructor
    · rintro rfl
      exact ⟨rfl, rfl, rfl⟩
    · rintro ⟨hplans, hresources, hfaults⟩
      exact ext hplans.symm hresources.symm hfaults.symm
  · rename_i schema
    constructor
    · intro h
      cases h
    · rintro ⟨rfl, rfl, rfl⟩
      exact absurd db.schema schema

/-- A statement whose result satisfies the schema succeeds. -/
theorem store_succeeds {plans : List PlanRow} {providerResources : List ProviderResourceRow}
    {faults : List FaultRow} (schema : FakeSchema plans providerResources faults) :
    store plans providerResources faults = .ok ⟨plans, providerResources, faults, schema⟩ :=
  dif_pos schema

theorem remaining_nonneg (db : FakeDatabase) (operation : String) :
    0 ≤ db.remaining operation := by
  unfold remaining
  cases hfind : db.faults.find? fun row => decide (row.operation = operation) with
  | none => decide
  | some row => exact db.schema.remaining row (List.mem_of_find?_eq_some hfind)

/-- One less than a positive counter is not negative. -/
theorem nonneg_pred {counter : Int64} (h : 0 ≤ counter) (hne : counter ≠ 0) :
    0 ≤ counter - 1 ∧ (counter - 1).toInt = counter.toInt - 1 := by
  have hnonneg : 0 ≤ counter.toInt := Int64.le_iff_toInt_le.mp h
  have hpos : counter.toInt ≠ 0 := fun heq => hne (Int64.toInt_inj.mp heq)
  have hlt := Int64.toInt_lt counter
  have hsub : (counter - 1).toInt = counter.toInt - 1 := by
    rw [Int64.toInt_sub]
    show Int.bmod (counter.toInt - 1) (2 ^ 64) = counter.toInt - 1
    rw [Int.bmod_eq_of_le] <;> omega
  refine ⟨Int64.le_iff_toInt_le.mpr ?_, hsub⟩
  rw [hsub]
  show (0 : Int) ≤ _
  omega

/-- The counter of an operation is taken down by one: no constraint is in the way. -/
theorem decrement_succeeds (hpositive : db.remaining operation ≠ 0) :
    ∃ db', db.decrement operation = .ok db' := by
  refine ⟨_, store_succeeds { db.schema with operations := ?_, remaining := ?_ }⟩
  · have hkeys : (db.faults.map fun row =>
        if row.operation = operation then { row with remaining := row.remaining - 1 }
        else row).map (·.operation) = db.faults.map (·.operation) := by
      rw [List.map_map]
      apply List.map_congr_left
      intro row _
      simp only [Function.comp]
      split <;> rfl
    rw [hkeys]
    exact db.schema.operations
  · intro row' hmem'
    obtain ⟨row, hmem, rfl⟩ := List.mem_map.mp hmem'
    have hnonneg := db.schema.remaining row hmem
    split
    · rename_i hoperation
      have hfind : db.faults.find? (fun r => decide (r.operation = operation)) = some row :=
        (Keyed.find?_eq_some_iff db.schema.operations).mpr ⟨hmem, hoperation⟩
      have hcounter : db.remaining operation = row.remaining := by
        unfold remaining
        rw [hfind]
        rfl
      rw [hcounter] at hpositive
      exact (nonneg_pred hnonneg hpositive).1
    · exact hnonneg

theorem remaining_decrement (h : db.decrement operation = .ok db') (other : String) :
    db'.remaining other =
      if other = operation ∧ ∃ row ∈ db.faults, row.operation = operation then
        db.remaining other - 1
      else db.remaining other := by
  obtain ⟨-, -, hfaults⟩ := store_eq_ok.mp h
  unfold remaining
  rw [hfaults, Keyed.find?_map (by intro row; split <;> rfl)]
  cases hfind : db.faults.find? fun row => decide (row.operation = other) with
  | none =>
    have hnone := Keyed.find?_eq_none_iff.mp hfind
    rw [if_neg]
    · rfl
    · rintro ⟨rfl, row, hmem, hoperation⟩
      exact hnone row hmem hoperation
  | some row =>
    obtain ⟨hmem, hoperation⟩ := (Keyed.find?_eq_some_iff db.schema.operations).mp hfind
    simp only [Option.map_some, Option.getD_some]
    by_cases heq : other = operation
    · rw [if_pos (hoperation.trans heq), if_pos ⟨heq, row, hmem, hoperation.trans heq⟩]
    · rw [if_neg (fun hrow => heq (hoperation.symm.trans hrow)), if_neg (fun h => heq h.1)]

/-- The row of a Host is the only one with its id. -/
theorem resourceRow_eq_some {row : ProviderResourceRow} :
    db.resourceRow hostId = some row ↔ row ∈ db.providerResources ∧ row.hostId = hostId :=
  Keyed.find?_eq_some_iff db.schema.hostIds

theorem resourceRow_eq_none :
    db.resourceRow hostId = none ↔ ∀ row ∈ db.providerResources, row.hostId ≠ hostId :=
  Keyed.find?_eq_none_iff

/-- A deletion never meets a constraint. -/
theorem deleteResource_succeeds (db : FakeDatabase) (hostId : HostId) :
    ∃ db', db.deleteResource hostId = .ok db' := by
  refine ⟨_, store_succeeds { db.schema with
    resourceIds := ?_, hostIds := ?_, planReferences := ?_, lifecycles := ?_ }⟩
  · exact db.schema.resourceIds.sublist (List.filter_sublist.map _)
  · exact db.schema.hostIds.sublist (List.filter_sublist.map _)
  · exact fun row hmem => db.schema.planReferences row (List.mem_filter.mp hmem).1
  · exact fun row hmem => db.schema.lifecycles row (List.mem_filter.mp hmem).1

/-- An insertion fails only if its id or its Host is taken, or its plan does not exist. -/
theorem insertResource_succeeds {row : ProviderResourceRow}
    (hid : ∀ other ∈ db.providerResources, other.id ≠ row.id)
    (hhost : ∀ other ∈ db.providerResources, other.hostId ≠ row.hostId)
    (hplan : row.planId ∈ db.plans.map (·.id)) (hlifecycle : row.lifecycle = "ready") :
    ∃ db', db.insertResource row = .ok db' := by
  refine ⟨_, store_succeeds { db.schema with
    resourceIds := ?_, hostIds := ?_, planReferences := ?_, lifecycles := ?_ }⟩
  · rw [List.map_append, List.nodup_append]
    refine ⟨db.schema.resourceIds, List.nodup_singleton _, ?_⟩
    intro id hmem other hother
    obtain ⟨existing, hexisting, rfl⟩ := List.mem_map.mp hmem
    rw [List.mem_singleton.mp hother]
    exact hid existing hexisting
  · rw [List.map_append, List.nodup_append]
    refine ⟨db.schema.hostIds, List.nodup_singleton _, ?_⟩
    intro id hmem other hother
    obtain ⟨existing, hexisting, rfl⟩ := List.mem_map.mp hmem
    rw [List.mem_singleton.mp hother]
    exact hhost existing hexisting
  · intro other hmem
    rcases List.mem_append.mp hmem with hmem | hmem
    · exact db.schema.planReferences other hmem
    · rw [List.mem_singleton.mp hmem]
      exact hplan
  · intro other hmem
    rcases List.mem_append.mp hmem with hmem | hmem
    · exact db.schema.lifecycles other hmem
    · rw [List.mem_singleton.mp hmem, hlifecycle]
      decide

end FakeDatabase

end ControlPlane
