import ControlPlane.Keyed
import ControlPlane.Storage.Operations
import Mathlib.Logic.Function.Basic

/-!
# What the tables say

The records a database holds, as functions of their ids: `claim?` is what `get_claim` would
decode, `host?` what `get_host` would. The lemmas relate the decoders to the columns and the
two tables to each other, so that later proofs speak of records and not of rows.
-/

namespace ControlPlane

/-! ## Columns -/

theorem toU32_fromU32 (value : UInt32) (field : String) :
    toU32 (fromU32 value) field = .ok value := by
  have hlt := UInt32.toNat_lt value
  have hint : (fromU32 value).toInt = value.toNat := Int64.toInt_ofNat_of_lt (by omega)
  unfold toU32
  rw [hint, if_pos (by omega)]
  simp

theorem toI64_eq_ok {value : UInt64} {field : String} {stored : Int64} :
    toI64 value field = .ok stored ↔ value.toNat < 2 ^ 63 ∧ stored = Int64.ofNat value.toNat := by
  unfold toI64
  split
  · rename_i h
    rw [Except.ok.injEq, eq_comm]
    exact ⟨fun heq => ⟨h, heq⟩, fun heq => heq.2⟩
  · rename_i h
    exact ⟨fun herror => (by cases herror), fun heq => absurd heq.1 h⟩

theorem toU64_of_toI64 {value : UInt64} {field field' : String} {stored : Int64}
    (h : toI64 value field = .ok stored) : toU64 stored field' = .ok value := by
  obtain ⟨hlt, rfl⟩ := toI64_eq_ok.mp h
  have hint : (Int64.ofNat value.toNat).toInt = value.toNat := Int64.toInt_ofNat_of_lt hlt
  unfold toU64
  rw [hint, if_pos (by omega)]
  simp

theorem toU64_eq_ok {stored : Int64} {field : String} {value : UInt64}
    (h : toU64 stored field = .ok value) : stored.toInt = value.toNat := by
  unfold toU64 at h
  split at h
  · rename_i hnonneg
    have hlt : stored.toInt < 2 ^ 63 := Int64.toInt_lt stored
    cases h
    have hsize : stored.toInt.toNat < UInt64.size := by
      unfold UInt64.size
      omega
    rw [UInt64.toNat_ofNat_of_lt' hsize]
    omega
  · cases h

/-- Two columns read back equal were stored equal. -/
theorem toU64_injective {first second : Int64} {field field' : String} {value : UInt64}
    (hfirst : toU64 first field = .ok value) (hsecond : toU64 second field' = .ok value) :
    first = second := by
  rw [← Int64.toInt_inj, toU64_eq_ok hfirst, toU64_eq_ok hsecond]

theorem toU32_zero (field : String) : toU32 0 field = .ok 0 := rfl

theorem hostPhaseFromDb_toDb (phase : HostPhase) :
    hostPhaseFromDb (hostPhaseToDb phase) = .ok phase := by
  cases phase <;> rfl

theorem hostPhaseFromDb_eq_ok {value : String} {phase : HostPhase}
    (h : hostPhaseFromDb value = .ok phase) : value = hostPhaseToDb phase := by
  unfold hostPhaseFromDb at h
  repeat' split at h
  all_goals
    cases h
    try assumption

/-- `claim_record_from_row`, column by column. -/
theorem claimRecordFromRow_eq_ok {row : JoinedClaimRow} {record : HostClaimRecord} :
    claimRecordFromRow row = .ok record ↔
      toU64 row.claim.generation "generation" = .ok record.resource.generation ∧
      toU32 row.claim.vcpus "vcpus" = .ok record.resource.spec.resources.vcpus ∧
      toU64 row.claim.memoryBytes "memory_bytes" =
        .ok record.resource.spec.resources.memoryBytes ∧
      toU64 row.claim.storageBytes "storage_bytes" =
        .ok record.resource.spec.resources.storageBytes ∧
      toU64 row.claim.observedGeneration "observed_generation" =
        .ok record.resource.status.observedGeneration ∧
      toU32 row.claim.retryAttempt "retry_attempt" = .ok record.retry.attempt ∧
      record.resource.id = row.claim.id ∧ record.resource.createdAt = row.claim.createdAt ∧
      record.resource.deletionTimestamp = row.claim.deletionTimestamp ∧
      record.resource.status.hostId = row.hostId ∧
      record.resource.status.conditions = row.claim.conditionsJson ∧
      record.retry.nextReconcileAtUnixMs = row.claim.nextReconcileAtUnixMs ∧
      record.retry.lastErrorKind = row.claim.lastErrorKind ∧
      record.retry.lastErrorMessage = row.claim.lastErrorMessage := by
  unfold claimRecordFromRow
  cases toU64 row.claim.generation "generation" with
  | error => simp [bind, Except.bind]
  | ok generation =>
  cases toU32 row.claim.vcpus "vcpus" with
  | error => simp [bind, Except.bind]
  | ok vcpus =>
  cases toU64 row.claim.memoryBytes "memory_bytes" with
  | error => simp [bind, Except.bind]
  | ok memoryBytes =>
  cases toU64 row.claim.storageBytes "storage_bytes" with
  | error => simp [bind, Except.bind]
  | ok storageBytes =>
  cases toU64 row.claim.observedGeneration "observed_generation" with
  | error => simp [bind, Except.bind]
  | ok observedGeneration =>
  cases toU32 row.claim.retryAttempt "retry_attempt" with
  | error => simp [bind, Except.bind]
  | ok attempt =>
  obtain ⟨⟨_, _, _, _, ⟨_, _, _⟩, ⟨_, _, _⟩⟩, ⟨_, _, _, _⟩⟩ := record
  simp only [bind, Except.bind, pure, Except.pure, Except.ok.injEq, HostClaimRecord.mk.injEq,
    HostClaim.mk.injEq, HostClaimSpec.mk.injEq, HostResources.mk.injEq, HostClaimStatus.mk.injEq,
    RetryState.mk.injEq]
  grind

/-- `host_record_from_row`, column by column. -/
theorem hostRecordFromRow_eq_ok {row : HostRow} {record : HostRecord} :
    hostRecordFromRow row = .ok record ↔
      toU32 row.vcpus "vcpus" = .ok record.resource.allocatableResources.vcpus ∧
      toU64 row.memoryBytes "memory_bytes" =
        .ok record.resource.allocatableResources.memoryBytes ∧
      toU64 row.storageBytes "storage_bytes" =
        .ok record.resource.allocatableResources.storageBytes ∧
      hostPhaseFromDb row.phase = .ok record.resource.status.phase ∧
      toU32 row.retryAttempt "retry_attempt" = .ok record.retry.attempt ∧
      record.resource.id = row.id ∧ record.resource.claimId = row.claimId ∧
      record.resource.createdAt = row.createdAt ∧
      record.resource.status.providerResourceId = row.providerResourceId ∧
      record.resource.status.observedAt = row.observedAt ∧
      record.resource.status.conditions = row.conditionsJson ∧
      record.providerPlanId = row.providerPlanId ∧
      record.retry.nextReconcileAtUnixMs = row.nextReconcileAtUnixMs ∧
      record.retry.lastErrorKind = row.lastErrorKind ∧
      record.retry.lastErrorMessage = row.lastErrorMessage := by
  unfold hostRecordFromRow
  cases toU32 row.vcpus "vcpus" with
  | error => simp [bind, Except.bind]
  | ok vcpus =>
  cases toU64 row.memoryBytes "memory_bytes" with
  | error => simp [bind, Except.bind]
  | ok memoryBytes =>
  cases toU64 row.storageBytes "storage_bytes" with
  | error => simp [bind, Except.bind]
  | ok storageBytes =>
  cases hostPhaseFromDb row.phase with
  | error => simp [bind, Except.bind]
  | ok phase =>
  cases toU32 row.retryAttempt "retry_attempt" with
  | error => simp [bind, Except.bind]
  | ok attempt =>
  obtain ⟨⟨_, _, _, ⟨_, _, _⟩, ⟨_, _, _, _⟩⟩, _, ⟨_, _, _, _⟩⟩ := record
  simp only [bind, Except.bind, pure, Except.pure, Except.ok.injEq, HostRecord.mk.injEq,
    Host.mk.injEq, HostResources.mk.injEq, HostStatus.mk.injEq, RetryState.mk.injEq]
  grind

/-- The columns a claim record was decoded from. -/
structure ClaimColumns (row : JoinedClaimRow) (record : HostClaimRecord) : Prop where
  generation : toU64 row.claim.generation "generation" = .ok record.resource.generation
  vcpus : toU32 row.claim.vcpus "vcpus" = .ok record.resource.spec.resources.vcpus
  memoryBytes : toU64 row.claim.memoryBytes "memory_bytes" =
    .ok record.resource.spec.resources.memoryBytes
  storageBytes : toU64 row.claim.storageBytes "storage_bytes" =
    .ok record.resource.spec.resources.storageBytes
  observedGeneration : toU64 row.claim.observedGeneration "observed_generation" =
    .ok record.resource.status.observedGeneration
  retryAttempt : toU32 row.claim.retryAttempt "retry_attempt" = .ok record.retry.attempt
  id : record.resource.id = row.claim.id
  createdAt : record.resource.createdAt = row.claim.createdAt
  deletionTimestamp : record.resource.deletionTimestamp = row.claim.deletionTimestamp
  hostId : record.resource.status.hostId = row.hostId
  conditions : record.resource.status.conditions = row.claim.conditionsJson
  nextReconcileAt : record.retry.nextReconcileAtUnixMs = row.claim.nextReconcileAtUnixMs
  lastErrorKind : record.retry.lastErrorKind = row.claim.lastErrorKind
  lastErrorMessage : record.retry.lastErrorMessage = row.claim.lastErrorMessage

theorem claimColumns {row : JoinedClaimRow} {record : HostClaimRecord}
    (h : claimRecordFromRow row = .ok record) : ClaimColumns row record := by
  obtain ⟨a, b, c, d, e, f, g, h, i, j, k, l, m, n⟩ := claimRecordFromRow_eq_ok.mp h
  exact ⟨a, b, c, d, e, f, g, h, i, j, k, l, m, n⟩

/-- The columns a Host record was decoded from. -/
structure HostColumns (row : HostRow) (record : HostRecord) : Prop where
  vcpus : toU32 row.vcpus "vcpus" = .ok record.resource.allocatableResources.vcpus
  memoryBytes : toU64 row.memoryBytes "memory_bytes" =
    .ok record.resource.allocatableResources.memoryBytes
  storageBytes : toU64 row.storageBytes "storage_bytes" =
    .ok record.resource.allocatableResources.storageBytes
  phase : hostPhaseFromDb row.phase = .ok record.resource.status.phase
  retryAttempt : toU32 row.retryAttempt "retry_attempt" = .ok record.retry.attempt
  id : record.resource.id = row.id
  claimId : record.resource.claimId = row.claimId
  createdAt : record.resource.createdAt = row.createdAt
  providerResourceId : record.resource.status.providerResourceId = row.providerResourceId
  observedAt : record.resource.status.observedAt = row.observedAt
  conditions : record.resource.status.conditions = row.conditionsJson
  providerPlanId : record.providerPlanId = row.providerPlanId
  nextReconcileAt : record.retry.nextReconcileAtUnixMs = row.nextReconcileAtUnixMs
  lastErrorKind : record.retry.lastErrorKind = row.lastErrorKind
  lastErrorMessage : record.retry.lastErrorMessage = row.lastErrorMessage

theorem hostColumns {row : HostRow} {record : HostRecord}
    (h : hostRecordFromRow row = .ok record) : HostColumns row record := by
  obtain ⟨a, b, c, d, e, f, g, h, i, j, k, l, m, n, o⟩ := hostRecordFromRow_eq_ok.mp h
  exact ⟨a, b, c, d, e, f, g, h, i, j, k, l, m, n, o⟩

theorem HostColumns.failed_iff {row : HostRow} {record : HostRecord} (h : HostColumns row record) :
    row.phase = "failed" ↔ record.resource.status.phase = .failed := by
  have hphase := h.phase
  constructor
  · intro hfailed
    rw [hfailed] at hphase
    exact (Except.ok.inj hphase).symm
  · intro hfailed
    rw [hostPhaseFromDb_eq_ok hphase, hfailed]
    rfl

/-! ## Records by id -/

namespace Database

open Storage

/-- The claim `get_claim` decodes. -/
def claim? (db : Database) (id : HostClaimId) : Option HostClaimRecord :=
  (fetchClaimRow db id).bind fun row => (claimRecordFromRow row).toOption

/-- The Host `get_host` decodes. -/
def host? (db : Database) (id : HostId) : Option HostRecord :=
  (db.hosts.find? fun row => row.id = id).bind fun row => (hostRecordFromRow row).toOption

/-- Every row decodes. -/
structure Readable (db : Database) : Prop where
  claims : ∀ row ∈ db.hostClaims, (db.claim? row.id).isSome
  hosts : ∀ row ∈ db.hosts, (db.host? row.id).isSome

variable {db db' : Database} {id : HostClaimId} {hostId : HostId}

@[ext] theorem ext (hclaims : db.hostClaims = db'.hostClaims) (hhosts : db.hosts = db'.hosts) :
    db = db' := by
  cases db
  cases db'
  simp_all

theorem toOption_eq_some {ε α : Type} {x : Except ε α} {a : α} :
    x.toOption = some a ↔ x = .ok a := by
  cases x <;> simp [Except.toOption]

theorem claim?_eq_some {record : HostClaimRecord} :
    db.claim? id = some record ↔
      ∃ row ∈ db.hostClaims, row.id = id ∧ claimRecordFromRow (joinHost db row) = .ok record := by
  simp only [claim?, fetchClaimRow, Option.bind_eq_some_iff, Option.map_eq_some_iff,
    Keyed.find?_eq_some_iff db.schema.claimIds, toOption_eq_some]
  constructor
  · rintro ⟨_, ⟨row, ⟨hmem, hid⟩, rfl⟩, hdecode⟩
    exact ⟨row, hmem, hid, hdecode⟩
  · rintro ⟨row, hmem, hid, hdecode⟩
    exact ⟨_, ⟨row, ⟨hmem, hid⟩, rfl⟩, hdecode⟩

theorem host?_eq_some {record : HostRecord} :
    db.host? hostId = some record ↔
      ∃ row ∈ db.hosts, row.id = hostId ∧ hostRecordFromRow row = .ok record := by
  simp only [host?, Option.bind_eq_some_iff, Keyed.find?_eq_some_iff db.schema.hostIds,
    toOption_eq_some, and_assoc]

theorem claim?_id {record : HostClaimRecord} (h : db.claim? id = some record) :
    record.resource.id = id := by
  obtain ⟨row, -, hid, hdecode⟩ := claim?_eq_some.mp h
  rw [← hid]
  exact (claimColumns hdecode).id

theorem host?_id {record : HostRecord} (h : db.host? hostId = some record) :
    record.resource.id = hostId := by
  obtain ⟨row, -, hid, hdecode⟩ := host?_eq_some.mp h
  rw [← hid]
  exact (hostColumns hdecode).id

/-- A stored generation is one SQLite can store. -/
theorem claim?_generation {record : HostClaimRecord} (h : db.claim? id = some record) :
    record.resource.generation.toNat < 2 ^ 63 := by
  obtain ⟨row, -, -, hdecode⟩ := claim?_eq_some.mp h
  have hgeneration := toU64_eq_ok (claimColumns hdecode).generation
  have hlt := Int64.toInt_lt row.generation
  simp only [joinHost] at hgeneration
  omega

theorem claim?_observedGeneration {record : HostClaimRecord} (h : db.claim? id = some record) :
    record.resource.status.observedGeneration.toNat < 2 ^ 63 := by
  obtain ⟨row, -, -, hdecode⟩ := claim?_eq_some.mp h
  have hgeneration := toU64_eq_ok (claimColumns hdecode).observedGeneration
  have hlt := Int64.toInt_lt row.observedGeneration
  simp only [joinHost] at hgeneration
  omega

/-- Every row of a readable table is the row of a record. -/
theorem Readable.claim_of_row {row : HostClaimRow} (readable : db.Readable)
    (hmem : row ∈ db.hostClaims) :
    ∃ claim, db.claim? row.id = some claim ∧ claimRecordFromRow (joinHost db row) = .ok claim := by
  obtain ⟨claim, hclaim⟩ := Option.isSome_iff_exists.mp (readable.claims row hmem)
  obtain ⟨row', hmem', hid, hdecode⟩ := claim?_eq_some.mp hclaim
  rw [List.inj_on_of_nodup_map db.schema.claimIds hmem' hmem hid] at hdecode
  exact ⟨claim, hclaim, hdecode⟩

theorem Readable.host_of_row {row : HostRow} (readable : db.Readable) (hmem : row ∈ db.hosts) :
    ∃ host, db.host? row.id = some host ∧ hostRecordFromRow row = .ok host := by
  obtain ⟨host, hhost⟩ := Option.isSome_iff_exists.mp (readable.hosts row hmem)
  obtain ⟨row', hmem', hid, hdecode⟩ := host?_eq_some.mp hhost
  rw [List.inj_on_of_nodup_map db.schema.hostIds hmem' hmem hid] at hdecode
  exact ⟨host, hhost, hdecode⟩

/-- The joined Host id is the id of the one Host of the claim. -/
theorem joinHost_hostId {row : HostClaimRow} :
    (joinHost db row).hostId = some hostId ↔
      ∃ host ∈ db.hosts, host.claimId = row.id ∧ host.id = hostId := by
  simp only [joinHost, fetchHostForClaimRow, Option.map_eq_some_iff,
    Keyed.find?_eq_some_iff db.schema.hostClaimIds, and_assoc]

/-- The Host id a claim record carries is that of a stored Host of the claim. -/
theorem claim?_hostId {record : HostClaimRecord} (readable : db.Readable)
    (h : db.claim? id = some record) :
    record.resource.status.hostId = some hostId ↔
      ∃ host, db.host? hostId = some host ∧ host.resource.claimId = id := by
  obtain ⟨row, -, hid, hdecode⟩ := claim?_eq_some.mp h
  rw [(claimColumns hdecode).hostId, joinHost_hostId]
  constructor
  · rintro ⟨hostRow, hmem, hclaim, rfl⟩
    obtain ⟨host, hhost, hdecode'⟩ := readable.host_of_row hmem
    refine ⟨host, hhost, ?_⟩
    rw [(hostColumns hdecode').claimId, hclaim, hid]
  · rintro ⟨host, hhost, hclaim⟩
    obtain ⟨row', hmem', hid', hdecode'⟩ := host?_eq_some.mp hhost
    refine ⟨row', hmem', ?_, hid'⟩
    rw [← (hostColumns hdecode').claimId, hclaim, hid]

/-- The Host id a claim record carries is that of a Host row of the claim. -/
theorem claim?_hostId_row {record : HostClaimRecord} (h : db.claim? id = some record) :
    record.resource.status.hostId = some hostId ↔
      ∃ host ∈ db.hosts, host.claimId = id ∧ host.id = hostId := by
  obtain ⟨row, -, hid, hdecode⟩ := claim?_eq_some.mp h
  rw [(claimColumns hdecode).hostId, joinHost_hostId, hid]

/-- Every stored Host belongs to a stored claim that is bound to it. -/
theorem host?_claim {host : HostRecord} (readable : db.Readable)
    (h : db.host? hostId = some host) :
    ∃ claim, db.claim? host.resource.claimId = some claim ∧
      claim.resource.status.hostId = some hostId := by
  obtain ⟨row, hmem, -, hdecode⟩ := host?_eq_some.mp h
  have hclaimId := (hostColumns hdecode).claimId
  obtain ⟨claimRow, hclaimMem, hclaimRow⟩ :=
    List.mem_map.mp (db.schema.hostReferences row hmem)
  obtain ⟨claim, hclaim⟩ := Option.isSome_iff_exists.mp (readable.claims claimRow hclaimMem)
  rw [hclaimRow, ← hclaimId] at hclaim
  exact ⟨claim, hclaim, (claim?_hostId readable hclaim).mpr ⟨host, h, rfl⟩⟩

theorem claim?_eq_none (readable : db.Readable) :
    db.claim? id = none ↔ ∀ row ∈ db.hostClaims, row.id ≠ id := by
  constructor
  · rintro h row hmem rfl
    have := readable.claims row hmem
    simp [h] at this
  · intro h
    rw [Option.eq_none_iff_forall_ne_some]
    intro record hrecord
    obtain ⟨row, hmem, hid, -⟩ := claim?_eq_some.mp hrecord
    exact h row hmem hid

theorem host?_eq_none (readable : db.Readable) :
    db.host? hostId = none ↔ ∀ row ∈ db.hosts, row.id ≠ hostId := by
  constructor
  · rintro h row hmem rfl
    have := readable.hosts row hmem
    simp [h] at this
  · intro h
    rw [Option.eq_none_iff_forall_ne_some]
    intro record hrecord
    obtain ⟨row, hmem, hid, -⟩ := host?_eq_some.mp hrecord
    exact h row hmem hid

theorem readable_empty : Database.empty.Readable :=
  ⟨fun row hmem => absurd hmem (List.not_mem_nil (a := row)),
    fun row hmem => absurd hmem (List.not_mem_nil (a := row))⟩

@[simp] theorem claim?_empty : Database.empty.claim? id = none := rfl

@[simp] theorem host?_empty : Database.empty.host? hostId = none := rfl

/-! ## Queries -/

theorem getHost_eq_ok {host : HostRecord} :
    getHost db hostId = .ok host ↔ db.host? hostId = some host := by
  unfold getHost host?
  cases db.hosts.find? fun row => decide (row.id = hostId) with
  | none => simp
  | some row => cases hrow : hostRecordFromRow row <;> simp [hrow, Except.toOption, internal]

theorem getClaim_eq_ok {claim : HostClaimRecord} :
    getClaim db id = .ok claim ↔ db.claim? id = some claim := by
  unfold getClaim claim?
  cases fetchClaimRow db id with
  | none => simp
  | some row => cases hrow : claimRecordFromRow row <;> simp [hrow, Except.toOption, internal]

theorem mapM_eq_ok {ε α β : Type} {f : α → Except ε β} :
    ∀ {xs : List α} {ys : List β}, xs.mapM f = .ok ys ↔ List.Forall₂ (fun x y => f x = .ok y) xs ys
  | [], ys => by
    rw [List.mapM_nil]
    constructor
    · intro h
      cases h
      exact .nil
    · intro h
      cases h
      rfl
  | x :: xs, ys => by
    rw [List.mapM_cons]
    constructor
    · intro h
      cases hx : f x with
      | error e => simp [hx, bind, Except.bind] at h
      | ok y =>
        cases hxs : xs.mapM f with
        | error e => simp [hx, hxs, bind, Except.bind] at h
        | ok zs =>
          simp only [hx, hxs, bind, Except.bind, pure, Except.pure, Except.ok.injEq] at h
          subst h
          exact .cons hx (mapM_eq_ok.mp hxs)
    · intro h
      cases h with
      | cons hx hxs =>
        rw [hx, mapM_eq_ok.mpr hxs]
        rfl

theorem internal_eq_ok {α : Type} {x : Except String α} {value : α} :
    internal x = .ok value ↔ x = .ok value := by
  cases x <;> simp [internal]

theorem orderedClaims_perm (db : Database) : (orderedClaims db).Perm db.hostClaims :=
  List.perm_insertionSort _ _

/-- `list_claims` returns every stored claim once. -/
theorem listClaims_ok {claims : List HostClaimRecord} (h : listClaims db = .ok claims) :
    (claims.map (·.resource.id)).Nodup ∧
      ∀ claim, claim ∈ claims ↔ db.claim? claim.resource.id = some claim := by
  have hrows := mapM_eq_ok.mp (internal_eq_ok.mp h)
  have hperm := orderedClaims_perm db
  revert hrows hperm
  generalize orderedClaims db = rows
  intro hrows hperm
  have hids : rows.map (·.id) = claims.map (·.resource.id) := by
    clear hperm h
    induction hrows with
    | nil => rfl
    | cons hrow _ ih =>
      simp only [List.map_cons, ih]
      rw [(claimColumns hrow).id]
      rfl
  refine ⟨?_, fun claim => ⟨fun hmem => ?_, fun hclaim => ?_⟩⟩
  · rw [← hids]
    exact (hperm.map _).nodup_iff.mpr db.schema.claimIds
  · obtain ⟨row, hrow, hdecode⟩ :
        ∃ row ∈ rows, claimRecordFromRow (joinHost db row) = .ok claim := by
      clear hids hperm h
      induction hrows with
      | nil => cases hmem
      | cons hrow _ ih =>
        rcases List.mem_cons.mp hmem with rfl | hmem
        · exact ⟨_, List.mem_cons_self, hrow⟩
        · obtain ⟨row, hin, hdecode⟩ := ih hmem
          exact ⟨row, List.mem_cons_of_mem _ hin, hdecode⟩
    refine claim?_eq_some.mpr ⟨row, hperm.mem_iff.mp hrow, ?_, hdecode⟩
    exact ((claimColumns hdecode).id).symm
  · obtain ⟨row, hrow, -, hdecode⟩ := claim?_eq_some.mp hclaim
    have hin := hperm.mem_iff.mpr hrow
    clear hids hperm h hrow hclaim
    induction hrows with
    | nil => cases hin
    | cons hfirst _ ih =>
      rcases List.mem_cons.mp hin with rfl | hin
      · rw [hfirst] at hdecode
        cases hdecode
        exact List.mem_cons_self
      · exact List.mem_cons_of_mem _ (ih hin)

/-- A traversal whose every step succeeds succeeds. -/
theorem mapM_succeeds {ε α β : Type} {f : α → Except ε β} {xs : List α}
    (h : ∀ x ∈ xs, ∃ y, f x = .ok y) : ∃ ys, xs.mapM f = .ok ys := by
  induction xs with
  | nil => exact ⟨[], rfl⟩
  | cons x xs ih =>
    obtain ⟨y, hy⟩ := h x List.mem_cons_self
    obtain ⟨ys, hys⟩ := ih fun z hz => h z (List.mem_cons_of_mem _ hz)
    exact ⟨y :: ys, mapM_eq_ok.mpr (.cons hy (mapM_eq_ok.mp hys))⟩

/-- `list_claims` succeeds where every row decodes. -/
theorem listClaims_of_readable (readable : db.Readable) :
    ∃ claims, listClaims db = .ok claims := by
  have hrows : ∀ row ∈ orderedClaims db,
      ∃ record, claimRecordFromRow (joinHost db row) = .ok record := by
    intro row hmem
    have hmem := (orderedClaims_perm db).mem_iff.mp hmem
    obtain ⟨record, -, hdecode⟩ := readable.claim_of_row hmem
    exact ⟨record, hdecode⟩
  obtain ⟨claims, hclaims⟩ := mapM_succeeds hrows
  exact ⟨claims, internal_eq_ok.mpr hclaims⟩

/-- `list_hosts` succeeds where every row decodes. -/
theorem listHosts_of_readable (readable : db.Readable) :
    ∃ hosts, listHosts db = .ok hosts := by
  have hrows : ∀ row ∈ orderedHosts db, ∃ record, hostRecordFromRow row = .ok record := by
    intro row hmem
    have hmem := (List.perm_insertionSort _ db.hosts).mem_iff.mp hmem
    obtain ⟨record, -, hdecode⟩ := readable.host_of_row hmem
    exact ⟨record, hdecode⟩
  obtain ⟨hosts, hhosts⟩ := mapM_succeeds hrows
  exact ⟨hosts, internal_eq_ok.mpr hhosts⟩

end Database

end ControlPlane
