import ControlPlane.Guarantees.Mutators

/-!
# Every stored row decodes, and reading undoes writing

What `create_claim` accepts is exactly what SQLite can store and the decoders can read back. In a
state reachable through the methods of `Storage`, with any arguments, no row makes a list fail, and
a read returns what the last write wrote.
-/

namespace ControlPlane

open Interaction Interaction.Session Storage Database

variable {db db' : Database} {id : HostClaimId} {spec : HostClaimSpec}

/-- Resources that can be stored. -/
structure HostResources.Storable (resources : HostResources) : Prop where
  vcpus : resources.vcpus ≠ 0
  memoryBytes : resources.memoryBytes ≠ 0
  storageBytes : resources.storageBytes ≠ 0
  memoryFits : resources.memoryBytes.toNat ≤ Int64.maxValue.toInt
  storageFits : resources.storageBytes.toNat ≤ Int64.maxValue.toInt

theorem validateResources_iff {resources : HostResources} :
    validateResources resources = .ok () ↔ resources.Storable := by
  have hmax : Int64.maxValue.toInt = 2 ^ 63 - 1 := by decide
  constructor
  · intro h
    obtain ⟨hvcpus, hmemory, hstorage, hmemoryFits, hstorageFits⟩ := validateResources_ok h
    exact ⟨hvcpus, hmemory, hstorage, by omega, by omega⟩
  · rintro ⟨hvcpus, hmemory, hstorage, hmemoryFits, hstorageFits⟩
    have hmemoryStored : toI64 resources.memoryBytes "memory_bytes" = _ :=
      toI64_eq_ok.mpr ⟨by omega, rfl⟩
    have hstorageStored : toI64 resources.storageBytes "storage_bytes" = _ :=
      toI64_eq_ok.mpr ⟨by omega, rfl⟩
    unfold validateResources
    simp only [hvcpus, hmemory, hstorage, if_false, hmemoryStored, hstorageStored]
    rfl

/-! ## `create_claim` accepts what can be stored -/

theorem pos_fromU32 {value : UInt32} (h : value ≠ 0) : 0 < fromU32 value := by
  have hlt := UInt32.toNat_lt value
  have hne : value.toNat ≠ 0 := fun heq => h (UInt32.toNat_inj.mp heq)
  have hint : (fromU32 value).toInt = value.toNat := Int64.toInt_ofNat_of_lt (by omega)
  rw [Int64.lt_iff_toInt_lt, hint]
  have hzero : (0 : Int64).toInt = 0 := rfl
  omega

theorem pos_toI64 {value : UInt64} {field : String} {stored : Int64} (hpos : value ≠ 0)
    (h : toI64 value field = .ok stored) : 0 < stored := by
  obtain ⟨hlt, rfl⟩ := toI64_eq_ok.mp h
  have hne : value.toNat ≠ 0 := fun heq => hpos (UInt64.toNat_inj.mp heq)
  rw [Int64.lt_iff_toInt_lt, Int64.toInt_ofNat_of_lt hlt]
  have hzero : (0 : Int64).toInt = 0 := rfl
  omega

/-- The row `create_claim` inserts for storable resources satisfies the constraints. -/
theorem newClaimRow_succeeds (id : HostClaimId) (now : Timestamp)
    (storable : spec.resources.Storable) :
    ∃ row, newClaimRow (initialClaim id spec now) = .ok row ∧ row.id = id ∧ row.Checks := by
  obtain ⟨-, -, -, hmemoryFits, hstorageFits⟩ :=
    validateResources_ok (validateResources_iff.mpr storable)
  have hmemory : toI64 spec.resources.memoryBytes "memory_bytes" = _ :=
    toI64_eq_ok.mpr ⟨hmemoryFits, rfl⟩
  have hstorage : toI64 spec.resources.storageBytes "storage_bytes" = _ :=
    toI64_eq_ok.mpr ⟨hstorageFits, rfl⟩
  have hgeneration : toI64 (initialClaim id spec now).generation "generation" = .ok 1 := rfl
  have hobserved : toI64 (initialClaim id spec now).status.observedGeneration
    "observed_generation" = .ok 0 := rfl
  refine ⟨_, bind_eq_ok.mpr ⟨1, hgeneration, bind_eq_ok.mpr ⟨_, hmemory, bind_eq_ok.mpr
    ⟨_, hstorage, bind_eq_ok.mpr ⟨0, hobserved, rfl⟩⟩⟩⟩, rfl, ?_⟩
  have hone : (1 : Int64) ≤ 1 := by decide
  have hzero : (0 : Int64) ≤ 0 := by decide
  exact ⟨hone, pos_fromU32 storable.vcpus, pos_toI64 storable.memoryBytes hmemory,
    pos_toI64 storable.storageBytes hstorage, hzero, hzero⟩

/-- `create_claim` inserts a claim with storable resources if its id is free. -/
theorem createClaim_inserts (now : Timestamp) (storable : spec.resources.Storable)
    (habsent : ∀ row ∈ db.hostClaims, row.id ≠ id) :
    ∃ db', createClaim id spec now db = .ok (initialClaim id spec now, db') := by
  obtain ⟨row, hrow, hid, hchecks⟩ := newClaimRow_succeeds id now storable
  have schema : Schema (db.hostClaims ++ [row]) db.hosts := by
    refine ⟨?_, ?_, db.schema.hostIds, db.schema.hostClaimIds, ?_,
      db.schema.providerResourceIds, db.schema.hostChecks⟩
    · rw [List.map_append, List.nodup_append]
      refine ⟨db.schema.claimIds, List.nodup_singleton _, ?_⟩
      intro first hfirst second hsecond
      obtain ⟨other, hother, rfl⟩ := List.mem_map.mp hfirst
      rw [List.map_singleton, List.mem_singleton] at hsecond
      rw [hsecond, hid]
      exact habsent other hother
    · intro other hother
      rcases List.mem_append.mp hother with hold | hnew
      · exact db.schema.claimChecks other hold
      · rw [List.mem_singleton.mp hnew]
        exact hchecks
    · intro host hhost
      rw [List.map_append]
      exact List.mem_append_left _ (db.schema.hostReferences host hhost)
  refine ⟨⟨_, _, schema⟩, ?_⟩
  unfold createClaim
  rw [validateResources_iff.mpr storable, fetchClaimRow_eq_none.mpr habsent]
  refine bind_eq_ok.mpr ⟨(), rfl, bind_eq_ok.mpr ⟨row, hrow, bind_eq_ok.mpr ⟨_, ?_, rfl⟩⟩⟩
  exact store_eq_ok.mpr ⟨rfl, rfl⟩

/-- Apart from a conflict, `create_claim` accepts exactly what can be stored. -/
theorem createClaim_accepts_iff (readable : db.Readable) (now : Timestamp)
    (hsame : ∀ stored, db.claim? id = some stored → stored.resource.spec = spec) :
    (∃ claim db', createClaim id spec now db = .ok (claim, db')) ↔ spec.resources.Storable := by
  constructor
  · rintro ⟨claim, db', h⟩
    obtain ⟨_, hvalid, -⟩ := bind_eq_ok.mp h
    exact validateResources_iff.mp hvalid
  · intro storable
    cases hstored : db.claim? id with
    | none =>
      obtain ⟨db', h⟩ := createClaim_inserts now storable
        ((claim?_eq_none readable).mp hstored)
      exact ⟨_, db', h⟩
    | some stored =>
      refine ⟨stored.resource, db, ?_⟩
      rw [createClaim_stored hstored, validateResources_iff.mpr storable]
      show (if _ then _ else _) = _
      rw [if_pos (hsame stored hstored)]

/-! ## What a write leaves to be read -/

/-- `save_host` answers Ok for a stored Host, whose status and retry state are then those given. -/
theorem getHost_of_saveHost {record : HostRecord} (readable : db.Readable)
    (h : saveHost record db = .ok ((), db')) :
    ∃ host, getHost db' record.resource.id = .ok host ∧
      host.resource.status = record.resource.status ∧ host.retry = record.retry := by
  obtain ⟨stored, -, -, -, hhost⟩ := saveHost_ok readable h
  refine ⟨stored.withStatus record, getHost_eq_ok.mpr ?_, rfl, rfl⟩
  rw [hhost, Function.update_self]

/-- `save_claim_status` answers `true` for a stored claim, whose status and retry state are then
    those given. -/
theorem getClaim_of_saveClaimStatus {record : HostClaimRecord} (readable : db.Readable)
    (h : saveClaimStatus record db = .ok (true, db')) :
    ∃ claim, getClaim db' record.resource.id = .ok claim ∧
      claim.resource.status.observedGeneration = record.resource.status.observedGeneration ∧
      claim.resource.status.conditions = record.resource.status.conditions ∧
      claim.retry = record.retry := by
  rcases saveClaimStatus_ok readable h with ⟨-, -, -, stored, -, -, hclaim⟩ | ⟨hfalse, -⟩
  · refine ⟨stored.withStatus record, getClaim_eq_ok.mpr ?_, rfl, rfl, rfl⟩
    rw [hclaim, Function.update_self]
  · cases hfalse

/-- `create_claim` returns the claim that is read back. -/
theorem getClaim_of_createClaim {now : Timestamp} {claim : HostClaim} (readable : db.Readable)
    (h : createClaim id spec now db = .ok (claim, db')) :
    ∃ record, getClaim db' id = .ok record ∧ record.resource = claim := by
  obtain ⟨stored, hstored, hclaim, -⟩ := createClaim_stores readable h
  exact ⟨stored, getClaim_eq_ok.mpr hstored, hclaim⟩

/-- In every state reachable through the methods of `Storage`: apart from a conflict,
    `create_claim` accepts a spec if and only if it can be stored; every row decodes, so both lists
    succeed; and what `create_claim`, `save_host` and `save_claim_status` wrote is read back. -/
theorem stored_rows_round_trip (h : Reached db) :
    (∀ id spec now, (∀ stored, db.claim? id = some stored → stored.resource.spec = spec) →
      ((∃ claim, (perform (Statements.createClaim id spec now) db).1 = .ok claim) ↔
        spec.resources.Storable)) ∧
    (∀ row ∈ db.hostClaims, ∃ record, claimRecordFromRow (joinHost db row) = .ok record) ∧
    (∀ row ∈ db.hosts, ∃ record, hostRecordFromRow row = .ok record) ∧
    (∃ claims, listClaims db = .ok claims) ∧ (∃ hosts, listHosts db = .ok hosts) ∧
    (∀ id spec now claim db',
      perform (Statements.createClaim id spec now) db = (.ok claim, db') →
      ∃ record, getClaim db' id = .ok record ∧ record.resource = claim) ∧
    (∀ record db', perform (Statements.saveHost record) db = (.ok (), db') →
      ∃ host, getHost db' record.resource.id = .ok host ∧
        host.resource.status = record.resource.status ∧ host.retry = record.retry) ∧
    (∀ record db', perform (Statements.saveClaimStatus record) db = (.ok true, db') →
      ∃ claim, getClaim db' record.resource.id = .ok claim ∧
        claim.resource.status.observedGeneration = record.resource.status.observedGeneration ∧
        claim.resource.status.conditions = record.resource.status.conditions ∧
        claim.retry = record.retry) := by
  have readable := h.readable
  refine ⟨fun id spec now hsame => ?_, fun row hmem => ?_, fun row hmem => ?_,
    listClaims_of_readable readable, listHosts_of_readable readable,
    fun id spec now claim db' hcreate => ?_, fun record db' hsave => ?_,
    fun record db' hsave => ?_⟩
  · rw [Statements.perform_createClaim, ← createClaim_accepts_iff readable now hsame]
    constructor
    · rintro ⟨claim, hclaim⟩
      exact ⟨claim, _, run_eq_ok.mp (Prod.ext hclaim rfl)⟩
    · rintro ⟨claim, db', hcreate⟩
      exact ⟨claim, congrArg Prod.fst (run_eq_ok.mpr hcreate)⟩
  · obtain ⟨record, -, hdecode⟩ := readable.claim_of_row hmem
    exact ⟨record, hdecode⟩
  · obtain ⟨record, -, hdecode⟩ := readable.host_of_row hmem
    exact ⟨record, hdecode⟩
  · rw [Statements.perform_createClaim, run_eq_ok] at hcreate
    exact getClaim_of_createClaim readable hcreate
  · rw [Statements.perform_saveHost, run_eq_ok] at hsave
    exact getHost_of_saveHost readable hsave
  · rw [Statements.perform_saveClaimStatus, run_eq_ok] at hsave
    exact getClaim_of_saveClaimStatus readable hsave

/-- The Host of the claim, ready. -/
def readyHost : HostRecord :=
  { oneHost with
    resource.status.phase := .ready
    resource.status.providerResourceId := some "resource"
    resource.status.observedAt := some ⟨1⟩ }

/-- The claim, to be visited again later. -/
def waitingClaim : HostClaimRecord where
  resource := initialClaim ⟨"claim"⟩ ⟨⟨1, 1, 1⟩⟩ ⟨0⟩
  retry := { attempt := 1, nextReconcileAtUnixMs := some 1000 }

/-- The tables after both have been saved. -/
def saved : Database :=
  Mutation.apply (Mutation.apply oneBound (.saveHost readyHost)) (.saveClaimStatus waitingClaim)

theorem saveClaimStatus_saved :
    perform (Statements.saveClaimStatus waitingClaim)
      (Mutation.apply oneBound (.saveHost readyHost)) = (.ok true, saved) := by
  decide +kernel

/-- A claim is created and bound to a Host, and both are saved. Both are read back, and so is a
    claim that is created then, while none without memory can be. -/
theorem round_trip_of_oneClaim :
    (∃ claims, listClaims saved = .ok claims) ∧ (∃ hosts, listHosts saved = .ok hosts) ∧
      (∃ host, getHost (Mutation.apply oneBound (.saveHost readyHost)) ⟨"host"⟩ = .ok host ∧
        host.resource.status = readyHost.resource.status ∧ host.retry = readyHost.retry) ∧
      (∃ claim, getClaim saved ⟨"claim"⟩ = .ok claim ∧ claim.retry = waitingClaim.retry) ∧
      ((∃ claim, (perform (Statements.createClaim ⟨"other"⟩ ⟨⟨1, 0, 1⟩⟩ ⟨0⟩) saved).1 =
          .ok claim) ↔ (HostResources.mk 1 0 1).Storable) := by
  have hbound : Reached oneBound := .apply _ (.apply _ .empty)
  obtain ⟨-, -, -, -, -, -, hhost, -⟩ := stored_rows_round_trip hbound
  have hhostSaved : Reached (Mutation.apply oneBound (.saveHost readyHost)) := .apply _ hbound
  obtain ⟨-, -, -, -, -, -, -, hclaim⟩ := stored_rows_round_trip hhostSaved
  have hsaved : Reached saved := .apply _ hhostSaved
  obtain ⟨haccepts, -, -, hclaims, hhosts, -⟩ := stored_rows_round_trip hsaved
  refine ⟨hclaims, hhosts, hhost readyHost _ ?_, ?_, haccepts _ _ _ fun stored hstored => ?_⟩
  · exact Prod.ext (show (perform (Statements.saveHost readyHost) oneBound).1 = .ok () by
      decide +kernel) rfl
  · obtain ⟨claim, hread, -, -, hretry⟩ := hclaim waitingClaim _ saveClaimStatus_saved
    exact ⟨claim, hread, hretry⟩
  · rw [show saved.claim? ⟨"other"⟩ = none by decide +kernel] at hstored
    cases hstored

end ControlPlane
