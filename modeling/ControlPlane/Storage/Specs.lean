import ControlPlane.Storage.Views
import Mathlib.Data.List.Pairwise

/-!
# What the mutators do to the records

One lemma for each mutator of `Storage`: when it returns, how `claim?` and `host?` of the new
database differ from those of the old one. A mutator that returns an error changes nothing, by
`Storage.run`.
-/

namespace ControlPlane

/-- A stored Host once `save_host` wrote `record`. -/
def HostRecord.withStatus (stored record : HostRecord) : HostRecord :=
  { stored with resource.status := record.resource.status, retry := record.retry }

/-- A stored claim once `save_claim_status` wrote `record`. -/
def HostClaimRecord.withStatus (stored record : HostClaimRecord) : HostClaimRecord :=
  { stored with
    resource.status.observedGeneration := record.resource.status.observedGeneration
    resource.status.conditions := record.resource.status.conditions
    retry := record.retry }

namespace Storage

open Database

variable {db db' : Database}

theorem store_eq_ok {hostClaims : List HostClaimRow} {hosts : List HostRow} :
    store hostClaims hosts = .ok db' ↔ db'.hostClaims = hostClaims ∧ db'.hosts = hosts := by
  unfold store
  split
  · rw [Except.ok.injEq, Database.ext_iff]
    exact and_congr eq_comm eq_comm
  · rename_i hbroken
    constructor
    · intro h
      cases h
    · rintro ⟨rfl, rfl⟩
      exact absurd db'.schema hbroken

theorem bind_eq_ok {ε α β : Type} {x : Except ε α} {f : α → Except ε β} {b : β} :
    (x >>= f) = .ok b ↔ ∃ a, x = .ok a ∧ f a = .ok b := by
  cases x <;> simp [bind, Except.bind]

theorem map_eq_ok {ε α β : Type} {x : Except ε α} {f : α → β} {b : β} :
    x.map f = .ok b ↔ ∃ a, x = .ok a ∧ f a = b := by
  cases x <;> simp [Except.map]

theorem run_eq_ok {α : Type} {operation : Database → Except AppError (α × Database)} {value : α} :
    run operation db = (.ok value, db') ↔ operation db = .ok (value, db') := by
  unfold run
  split <;> rename_i h <;> simp [h]

/-- An operation that returns an error left the database alone. -/
theorem run_error {α : Type} {operation : Database → Except AppError (α × Database)}
    {error : AppError} (h : (run operation db).1 = .error error) : (run operation db).2 = db := by
  unfold run at h ⊢
  split at h
  · cases h
  · rfl

/-! ## Rows written back -/

/-- The joined Host id does not touch the other columns. -/
theorem claimRecordFromRow_hostId (hostId : Option HostId) (row : HostClaimRow)
    (hostId' : Option HostId) :
    claimRecordFromRow { claim := row, hostId := hostId' } =
      (claimRecordFromRow { claim := row, hostId := hostId }).map fun claim =>
        { claim with resource.status.hostId := hostId' } := by
  unfold claimRecordFromRow
  dsimp only
  cases toU64 row.generation "generation" <;> try rfl
  cases toU32 row.vcpus "vcpus" <;> try rfl
  cases toU64 row.memoryBytes "memory_bytes" <;> try rfl
  cases toU64 row.storageBytes "storage_bytes" <;> try rfl
  cases toU64 row.observedGeneration "observed_generation" <;> try rfl
  cases toU32 row.retryAttempt "retry_attempt" <;> rfl

/-- A claim row with a status, a retry state and a deletion timestamp written to it decodes to
    the stored record with these replaced. -/
theorem claimRecordFromRow_write (record : HostClaimRecord) (deletion : Option Timestamp)
    {row : HostClaimRow} {hostId : Option HostId} {stored : HostClaimRecord}
    {observedGeneration : Int64}
    (hdecode : claimRecordFromRow { claim := row, hostId := hostId } = .ok stored)
    (hgeneration : toI64 record.resource.status.observedGeneration "observed_generation" =
      .ok observedGeneration) :
    claimRecordFromRow
      { claim :=
          { row with
            deletionTimestamp := deletion
            observedGeneration := observedGeneration
            conditionsJson := record.resource.status.conditions
            retryAttempt := fromU32 record.retry.attempt
            nextReconcileAtUnixMs := record.retry.nextReconcileAtUnixMs
            lastErrorKind := record.retry.lastErrorKind
            lastErrorMessage := record.retry.lastErrorMessage }
        hostId := hostId } =
      .ok { stored.withStatus record with resource.deletionTimestamp := deletion } := by
  have hcolumns := claimRecordFromRow_eq_ok.mp hdecode
  rw [claimRecordFromRow_eq_ok]
  simp only [HostClaimRecord.withStatus, toU32_fromU32, toU64_of_toI64 hgeneration]
  simp only [hcolumns, and_self]

/-! ## Views of rewritten tables -/

theorem joinHost_congr
    (h : ∀ claimId, (fetchHostForClaimRow db' claimId).map (·.id) =
      (fetchHostForClaimRow db claimId).map (·.id)) (row : HostClaimRow) :
    joinHost db' row = joinHost db row := by
  simp only [joinHost, h]

theorem claim?_congr (hclaims : db'.hostClaims = db.hostClaims)
    (hjoin : ∀ row, joinHost db' row = joinHost db row) : db'.claim? = db.claim? := by
  funext id
  simp only [claim?, fetchClaimRow, hclaims, funext hjoin]

theorem host?_congr (hhosts : db'.hosts = db.hosts) : db'.host? = db.host? := by
  funext hostId
  simp only [host?, hhosts]

theorem joinHost_of_hosts (hhosts : db'.hosts = db.hosts) (row : HostClaimRow) :
    joinHost db' row = joinHost db row := by
  simp only [joinHost, fetchHostForClaimRow, hhosts]

/-- Rewriting the Host with a given id. -/
theorem host?_of_map {hostId : HostId} {set : HostRow → HostRow}
    (hhosts : db'.hosts = db.hosts.map fun row => if row.id = hostId then set row else row)
    (keep : ∀ row, (set row).id = row.id) (id : HostId) :
    db'.host? id = if id = hostId then
        (db.hosts.find? fun row => row.id = hostId).bind
          fun row => (hostRecordFromRow (set row)).toOption
      else db.host? id := by
  have hkeep : ∀ row : HostRow, (if row.id = hostId then set row else row).id = row.id := by
    intro row
    split
    · exact keep row
    · rfl
  simp only [host?, hhosts]
  rw [Keyed.find?_map hkeep]
  cases hfind : db.hosts.find? fun row => decide (row.id = id) with
  | none =>
    by_cases hid : id = hostId
    · subst hid
      simp [hfind]
    · simp [hid]
  | some row =>
    have hrow : row.id = id := by simpa using List.find?_some hfind
    by_cases hid : id = hostId
    · subst hid
      simp [hfind, hrow]
    · simp [hid, hrow]

theorem joinHost_of_map {hostId : HostId} {set : HostRow → HostRow}
    (hhosts : db'.hosts = db.hosts.map fun row => if row.id = hostId then set row else row)
    (keep : ∀ row, (set row).id = row.id ∧ (set row).claimId = row.claimId)
    (row : HostClaimRow) : joinHost db' row = joinHost db row := by
  apply joinHost_congr
  intro claimId
  have hkeep : ∀ row : HostRow,
      (if row.id = hostId then set row else row).claimId = row.claimId ∧
        (if row.id = hostId then set row else row).id = row.id := by
    intro row
    split
    · exact ⟨(keep row).2, (keep row).1⟩
    · exact ⟨rfl, rfl⟩
  simp only [fetchHostForClaimRow, hhosts]
  rw [Keyed.find?_map fun row => (hkeep row).1, Option.map_map]
  congr 1
  funext row
  exact (hkeep row).2

/-- Rewriting the claims that are selected by id and something else. -/
theorem claim?_of_map {claimId : HostClaimId} {selected : HostClaimRow → Bool}
    {set : HostClaimRow → HostClaimRow}
    (hclaims : db'.hostClaims = db.hostClaims.map fun row => if selected row then set row else row)
    (hhosts : db'.hosts = db.hosts) (keep : ∀ row, (set row).id = row.id)
    (only : ∀ row, selected row = true → row.id = claimId) (id : HostClaimId) :
    db'.claim? id = if id = claimId then
        (db.hostClaims.find? fun row => row.id = claimId).bind fun row =>
          (claimRecordFromRow
            (joinHost db (if selected row then set row else row))).toOption
      else db.claim? id := by
  have hkeep : ∀ row : HostClaimRow, (if selected row then set row else row).id = row.id := by
    intro row
    split
    · exact keep row
    · rfl
  simp only [claim?, fetchClaimRow, hclaims]
  rw [Keyed.find?_map hkeep]
  cases hfind : db.hostClaims.find? fun row => decide (row.id = id) with
  | none =>
    by_cases hid : id = claimId
    · subst hid
      simp [hfind]
    · simp [hid]
  | some row =>
    have hrow : row.id = id := by simpa using List.find?_some hfind
    by_cases hid : id = claimId
    · subst hid
      simp [hfind, joinHost_of_hosts hhosts]
    · have hsel : ¬ selected row = true := fun hsel => hid (hrow ▸ only row hsel)
      simp [hid, hsel, joinHost_of_hosts hhosts]

/-- An insertion into `hosts` binds the claim it names. -/
theorem claim?_of_append {host : HostRow} (hclaims : db'.hostClaims = db.hostClaims)
    (hhosts : db'.hosts = db.hosts ++ [host])
    (unbound : ∀ row ∈ db.hosts, row.claimId ≠ host.claimId) (id : HostClaimId) :
    db'.claim? id = if id = host.claimId then
        (db.claim? id).map fun claim =>
          { claim with resource.status.hostId := some host.id }
      else db.claim? id := by
  simp only [claim?, fetchClaimRow, hclaims]
  cases hfind : db.hostClaims.find? fun row => decide (row.id = id) with
  | none => simp
  | some row =>
    have hrow : row.id = id := by simpa using List.find?_some hfind
    simp only [Option.map_some, Option.bind_some]
    by_cases hid : id = host.claimId
    · have hjoin : joinHost db' row = { claim := row, hostId := some host.id } := by
        simp only [joinHost, fetchHostForClaimRow, hhosts, hrow, hid]
        rw [Keyed.find?_append_self unbound]
        rfl
      rw [if_pos hid, hjoin, claimRecordFromRow_hostId (joinHost db row).hostId]
      simp only [joinHost]
      cases claimRecordFromRow _ <;> rfl
    · have hjoin : joinHost db' row = joinHost db row := by
        simp only [joinHost, fetchHostForClaimRow, hhosts, hrow]
        rw [Keyed.find?_append_ne (Ne.symm hid)]
      rw [if_neg hid, hjoin]

theorem host?_of_append {host : HostRow} (hhosts : db'.hosts = db.hosts ++ [host])
    (fresh : ∀ row ∈ db.hosts, row.id ≠ host.id) (id : HostId) :
    db'.host? id = if id = host.id then (hostRecordFromRow host).toOption else db.host? id := by
  simp only [host?, hhosts]
  by_cases hid : id = host.id
  · subst hid
    rw [Keyed.find?_append_self fresh, if_pos rfl]
    rfl
  · rw [Keyed.find?_append_ne (Ne.symm hid), if_neg hid]

theorem isSome_update {κ β : Type} [DecidableEq κ] {f : κ → Option β} {key changed : κ} {value : β}
    (h : key ≠ changed → (f key).isSome) :
    (Function.update f changed (some value) key).isSome := by
  by_cases hkey : key = changed
  · subst hkey
    simp
  · rw [Function.update_of_ne hkey]
    exact h hkey

/-! ## `UPDATE host_claims` -/

section updateClaims

variable {selected : HostClaimRow → Bool} {set : HostClaimRow → HostClaimRow}
  {claimId : HostClaimId} {affected : Nat}

theorem updateClaims_rows (h : db.updateClaims selected set = .ok (affected, db')) :
    affected = db.hostClaims.countP selected ∧ db'.hosts = db.hosts ∧
      db'.hostClaims = db.hostClaims.map fun row => if selected row then set row else row := by
  obtain ⟨stored, hstore, heq⟩ := map_eq_ok.mp h
  obtain ⟨rfl, rfl⟩ := Prod.mk.inj heq
  obtain ⟨hclaims, hhosts⟩ := store_eq_ok.mp hstore
  exact ⟨rfl, hhosts, hclaims⟩

/-- An update of the row of one stored claim, seen from the records. -/
theorem updateClaims_records (next : HostClaimRecord) {stored : HostClaimRecord}
    (h : db.updateClaims selected set = .ok (affected, db'))
    (hstored : db.claim? claimId = some stored) (keep : ∀ row, (set row).id = row.id)
    (only : ∀ row, selected row = true → row.id = claimId)
    (hset : ∀ row hostId, row.id = claimId →
      claimRecordFromRow { claim := row, hostId := hostId } = .ok stored →
      selected row = true ∧ claimRecordFromRow { claim := set row, hostId := hostId } = .ok next) :
    db'.claim? = Function.update db.claim? claimId (some next) ∧ db'.host? = db.host? := by
  obtain ⟨-, hhosts, hclaims⟩ := updateClaims_rows h
  obtain ⟨row, hmem, hid, hdecode⟩ := claim?_eq_some.mp hstored
  obtain ⟨hselected, hnext⟩ := hset row _ hid hdecode
  refine ⟨?_, host?_congr hhosts⟩
  funext id
  rw [claim?_of_map hclaims hhosts keep only]
  by_cases hkey : id = claimId
  · subst hkey
    rw [Function.update_self, if_pos rfl,
      (Keyed.find?_eq_some_iff db.schema.claimIds).mpr ⟨hmem, hid⟩, Option.bind_some,
      if_pos hselected, toOption_eq_some]
    simp only [joinHost, keep]
    exact hnext
  · rw [Function.update_of_ne hkey, if_neg hkey]

/-- An update that replaces the record of one claim keeps the tables readable. -/
theorem updateClaims_readable {next : HostClaimRecord}
    (h : db.updateClaims selected set = .ok (affected, db')) (readable : db.Readable)
    (keep : ∀ row, (set row).id = row.id)
    (hclaim : db'.claim? = Function.update db.claim? claimId (some next)) : db'.Readable := by
  obtain ⟨-, hhosts, hclaims⟩ := updateClaims_rows h
  refine ⟨fun row hmem => ?_, fun row hmem => ?_⟩
  · rw [hclaims] at hmem
    obtain ⟨old, hold, rfl⟩ := List.mem_map.mp hmem
    have hkeep : (if selected old then set old else old).id = old.id := by
      split
      · exact keep old
      · rfl
    rw [hclaim, hkeep]
    exact isSome_update fun _ => readable.claims old hold
  · rw [host?_congr hhosts]
    exact readable.hosts row (hhosts ▸ hmem)

/-- An update of the row of one stored claim keeps the tables readable. -/
theorem updateClaims_ok (next : HostClaimRecord) {stored : HostClaimRecord}
    (h : db.updateClaims selected set = .ok (affected, db')) (readable : db.Readable)
    (hstored : db.claim? claimId = some stored) (keep : ∀ row, (set row).id = row.id)
    (only : ∀ row, selected row = true → row.id = claimId)
    (hset : ∀ row hostId, row.id = claimId →
      claimRecordFromRow { claim := row, hostId := hostId } = .ok stored →
      selected row = true ∧ claimRecordFromRow { claim := set row, hostId := hostId } = .ok next) :
    db'.claim? = Function.update db.claim? claimId (some next) ∧ db'.host? = db.host? ∧
      db'.Readable := by
  obtain ⟨hclaim, hhost⟩ := updateClaims_records next h hstored keep only hset
  exact ⟨hclaim, hhost, updateClaims_readable h readable keep hclaim⟩

/-- An update that selects no row changes nothing. -/
theorem updateClaims_none (h : db.updateClaims selected set = .ok (affected, db'))
    (hnone : ∀ row ∈ db.hostClaims, ¬ selected row = true) : affected = 0 ∧ db' = db := by
  obtain ⟨rfl, hhosts, hclaims⟩ := updateClaims_rows h
  refine ⟨List.countP_eq_zero.mpr hnone, Database.ext ?_ hhosts⟩
  rw [hclaims]
  calc
    _ = db.hostClaims.map id := List.map_congr_left fun row hmem => by simp [hnone row hmem]
    _ = db.hostClaims := List.map_id _

/-- At most one row has a given id. -/
theorem updateClaims_affected (claimId : HostClaimId)
    (h : db.updateClaims selected set = .ok (affected, db'))
    {row : HostClaimRow} (hmem : row ∈ db.hostClaims) (hselected : selected row = true)
    (only : ∀ row, selected row = true → row.id = claimId) : affected = 1 := by
  obtain ⟨rfl, -, -⟩ := updateClaims_rows h
  have hle := Keyed.countP_key_le_one (k := claimId) db.schema.claimIds selected
  have hpos : 0 < db.hostClaims.countP selected := List.countP_pos_iff.mpr ⟨row, hmem, hselected⟩
  have hsame : db.hostClaims.countP (fun r => decide (r.id = claimId) && selected r) =
      db.hostClaims.countP selected := by
    apply List.countP_congr
    intro r _
    constructor
    · intro hr
      exact (Bool.and_eq_true _ _ ▸ hr).2
    · intro hr
      simp [hr, only r hr]
  omega

/-- An update that keeps the ids and the checks of the rows succeeds. -/
theorem updateClaims_succeeds (db : Database) (selected : HostClaimRow → Bool)
    (set : HostClaimRow → HostClaimRow) (keep : ∀ row, (set row).id = row.id)
    (checks : ∀ row ∈ db.hostClaims, row.Checks → (set row).Checks) :
    ∃ db', db.updateClaims selected set = .ok (db.hostClaims.countP selected, db') := by
  have hids : (db.hostClaims.map fun row => if selected row then set row else row).map (·.id) =
      db.hostClaims.map (·.id) := by
    rw [List.map_map]
    apply List.map_congr_left
    intro row _
    simp only [Function.comp]
    split
    · exact keep row
    · rfl
  have schema : Schema (db.hostClaims.map fun row => if selected row then set row else row)
      db.hosts := by
    refine ⟨?_, ?_, db.schema.hostIds, db.schema.hostClaimIds, ?_, db.schema.providerResourceIds,
      db.schema.hostChecks⟩
    · rw [hids]
      exact db.schema.claimIds
    · intro row' hmem
      obtain ⟨row, hrow, rfl⟩ := List.mem_map.mp hmem
      have hchecks := db.schema.claimChecks row hrow
      split
      · exact checks row hrow hchecks
      · exact hchecks
    · rw [hids]
      exact db.schema.hostReferences
  exact ⟨⟨_, _, schema⟩, by simp [updateClaims, store, schema, Except.map]⟩

end updateClaims

/-! ## `save_claim_status` -/

/-- The rows `save_claim_status` may write to. -/
theorem saveClaimStatus_update {record : HostClaimRecord} {saved : Bool}
    (h : saveClaimStatus record db = .ok (saved, db')) :
    ∃ observedGeneration affected,
      toI64 record.resource.status.observedGeneration "observed_generation" =
        .ok observedGeneration ∧
      db.updateClaims (fun row => row.id = record.resource.id ∧
          row.deletionTimestamp = record.resource.deletionTimestamp)
        (fun row =>
          { row with
            observedGeneration := observedGeneration
            conditionsJson := record.resource.status.conditions
            retryAttempt := fromU32 record.retry.attempt
            nextReconcileAtUnixMs := record.retry.nextReconcileAtUnixMs
            lastErrorKind := record.retry.lastErrorKind
            lastErrorMessage := record.retry.lastErrorMessage }) = .ok (affected, db') ∧
      saved = decide (affected = 1) := by
  unfold saveClaimStatus at h
  obtain ⟨observedGeneration, hgeneration, h⟩ := bind_eq_ok.mp h
  obtain ⟨⟨affected, middle⟩, hupdate, h⟩ := bind_eq_ok.mp h
  obtain ⟨rfl, rfl⟩ : decide (affected = 1) = saved ∧ middle = db' := by
    simpa [pure, Except.pure] using h
  exact ⟨observedGeneration, affected, hgeneration, hupdate, rfl⟩

/-- `save_claim_status` replaces the status of a stored claim with the deletion timestamp of the
    record. -/
theorem saveClaimStatus_records {record stored : HostClaimRecord} {saved : Bool}
    (h : saveClaimStatus record db = .ok (saved, db'))
    (hstored : db.claim? record.resource.id = some stored)
    (hdeletion : stored.resource.deletionTimestamp = record.resource.deletionTimestamp) :
    saved = true ∧ db'.host? = db.host? ∧
      db'.claim? =
        Function.update db.claim? record.resource.id (some (stored.withStatus record)) := by
  obtain ⟨observedGeneration, affected, hgeneration, hupdate, rfl⟩ := saveClaimStatus_update h
  obtain ⟨row, hmem, hid, hdecode⟩ := claim?_eq_some.mp hstored
  have hcolumn := (claimColumns hdecode).deletionTimestamp
  have honly : ∀ row : HostClaimRow, decide (row.id = record.resource.id ∧
      row.deletionTimestamp = record.resource.deletionTimestamp) = true →
      row.id = record.resource.id := fun row hrow => (of_decide_eq_true hrow).1
  have haffected : affected = 1 :=
    updateClaims_affected record.resource.id hupdate hmem
      (by simp [hid, ← hdeletion, hcolumn, joinHost]) honly
  obtain ⟨hclaim, hhost⟩ := updateClaims_records
    (stored.withStatus record) hupdate hstored (fun _ => rfl) honly
    (fun row hostId hrow hdecode => by
      have hcolumn : stored.resource.deletionTimestamp = row.deletionTimestamp :=
        (claimColumns hdecode).deletionTimestamp
      refine ⟨by simp [hrow, ← hdeletion, hcolumn], ?_⟩
      rw [claimRecordFromRow_write record row.deletionTimestamp hdecode hgeneration,
        ← hcolumn]
      rfl)
  exact ⟨by simp [haffected], hhost, hclaim⟩

/-- `save_claim_status` touches at most one claim, and no Host. -/
theorem saveClaimStatus_frame {record : HostClaimRecord} {saved : Bool}
    (h : saveClaimStatus record db = .ok (saved, db')) :
    (∀ id, id ≠ record.resource.id → db'.claim? id = db.claim? id) ∧ db'.host? = db.host? := by
  obtain ⟨observedGeneration, affected, -, hupdate, -⟩ := saveClaimStatus_update h
  obtain ⟨-, hhosts, hclaims⟩ := updateClaims_rows hupdate
  refine ⟨fun id hne => ?_, host?_congr hhosts⟩
  have honly : ∀ row : HostClaimRow, decide (row.id = record.resource.id ∧
      row.deletionTimestamp = record.resource.deletionTimestamp) = true →
      row.id = record.resource.id := fun row hrow => (of_decide_eq_true hrow).1
  have hframe := claim?_of_map hclaims hhosts (fun _ => rfl) honly id
  rw [if_neg hne] at hframe
  exact hframe

/-- `save_claim_status` replaces the status of a claim whose deletion timestamp is that of the
    record, and answers `false` and writes nothing where there is no such claim. -/
theorem saveClaimStatus_ok {record : HostClaimRecord} {saved : Bool} (readable : db.Readable)
    (h : saveClaimStatus record db = .ok (saved, db')) :
    (saved = true ∧ db'.Readable ∧ db'.host? = db.host? ∧
      ∃ stored, db.claim? record.resource.id = some stored ∧
        stored.resource.deletionTimestamp = record.resource.deletionTimestamp ∧
        db'.claim? =
          Function.update db.claim? record.resource.id (some (stored.withStatus record))) ∨
    (saved = false ∧ db' = db ∧ ∀ stored, db.claim? record.resource.id = some stored →
      stored.resource.deletionTimestamp ≠ record.resource.deletionTimestamp) := by
  obtain ⟨observedGeneration, affected, -, hupdate, hsaved⟩ := saveClaimStatus_update h
  by_cases hstored : ∃ stored, db.claim? record.resource.id = some stored ∧
      stored.resource.deletionTimestamp = record.resource.deletionTimestamp
  · obtain ⟨stored, hstored, hdeletion⟩ := hstored
    obtain ⟨htrue, hhost, hclaim⟩ := saveClaimStatus_records h hstored hdeletion
    exact .inl ⟨htrue, updateClaims_readable hupdate readable (fun _ => rfl) hclaim, hhost, stored,
      hstored, hdeletion, hclaim⟩
  · have hnone : ∀ row ∈ db.hostClaims, ¬ decide (row.id = record.resource.id ∧
        row.deletionTimestamp = record.resource.deletionTimestamp) = true := by
      intro row hmem hselected
      obtain ⟨hid, hdeletion⟩ := of_decide_eq_true hselected
      obtain ⟨stored, hclaim, hdecode⟩ := readable.claim_of_row hmem
      refine hstored ⟨stored, hid ▸ hclaim, ?_⟩
      rw [← hdeletion]
      exact (claimColumns hdecode).deletionTimestamp
    obtain ⟨rfl, rfl⟩ := updateClaims_none hupdate hnone
    exact .inr ⟨hsaved, rfl, fun stored hclaim hdeletion => hstored ⟨stored, hclaim, hdeletion⟩⟩

theorem nonneg_fromU32 (value : UInt32) : 0 ≤ fromU32 value := by
  have hlt := UInt32.toNat_lt value
  have hint : (fromU32 value).toInt = value.toNat := Int64.toInt_ofNat_of_lt (by omega)
  rw [Int64.le_iff_toInt_le, hint]
  exact Int.natCast_nonneg _

theorem nonneg_toI64 {value : UInt64} {field : String} {stored : Int64}
    (h : toI64 value field = .ok stored) : 0 ≤ stored := by
  obtain ⟨hlt, rfl⟩ := toI64_eq_ok.mp h
  rw [Int64.le_iff_toInt_le, Int64.toInt_ofNat_of_lt hlt]
  exact Int.natCast_nonneg _

/-- `save_claim_status` succeeds for every generation SQLite can store. -/
theorem saveClaimStatus_succeeds {record : HostClaimRecord}
    (hfits : record.resource.status.observedGeneration.toNat < 2 ^ 63) :
    ∃ saved db', saveClaimStatus record db = .ok (saved, db') := by
  have hgeneration : toI64 record.resource.status.observedGeneration "observed_generation" = _ :=
    toI64_eq_ok.mpr ⟨hfits, rfl⟩
  obtain ⟨db', hupdate⟩ := updateClaims_succeeds db
    (fun row => row.id = record.resource.id ∧
      row.deletionTimestamp = record.resource.deletionTimestamp)
    (fun row =>
      { row with
        observedGeneration :=
          Int64.ofNat record.resource.status.observedGeneration.toNat
        conditionsJson := record.resource.status.conditions
        retryAttempt := fromU32 record.retry.attempt
        nextReconcileAtUnixMs := record.retry.nextReconcileAtUnixMs
        lastErrorKind := record.retry.lastErrorKind
        lastErrorMessage := record.retry.lastErrorMessage }) (fun _ => rfl)
    (fun row _ hchecks => ⟨hchecks.1, hchecks.2.1, hchecks.2.2.1, hchecks.2.2.2.1,
      nonneg_toI64 hgeneration, nonneg_fromU32 _⟩)
  unfold saveClaimStatus
  rw [hgeneration]
  exact ⟨_, db', bind_eq_ok.mpr ⟨_, rfl, bind_eq_ok.mpr ⟨_, hupdate, rfl⟩⟩⟩

/-! ## `mark_claim_deleting` -/

/-- `mark_claim_deleting` stores the deletion request, or finds the claim being deleted already
    and writes nothing. -/
theorem markClaimDeleting_ok {id : HostClaimId} {now : Timestamp} {claim : HostClaim}
    (readable : db.Readable) (h : markClaimDeleting id now db = .ok (claim, db')) :
    ∃ stored, db.claim? id = some stored ∧
      ((stored.resource.deletionTimestamp.isSome ∧ claim = stored.resource ∧ db' = db) ∨
       (stored.resource.deletionTimestamp = none ∧
        claim = (requestDeletion stored now).resource ∧ db'.Readable ∧ db'.host? = db.host? ∧
        db'.claim? = Function.update db.claim? id (some (requestDeletion stored now)))) := by
  unfold markClaimDeleting at h
  cases hfetch : fetchClaimRow db id with
  | none => simp [hfetch, throw, throwThe, MonadExceptOf.throw] at h
  | some row =>
  rw [hfetch] at h
  obtain ⟨stored, hdecode, h⟩ := bind_eq_ok.mp h
  have hstored : db.claim? id = some stored := by
    simp [claim?, hfetch, internal_eq_ok.mp hdecode, Except.toOption]
  refine ⟨stored, hstored, ?_⟩
  split at h
  · rename_i hdeletion
    obtain ⟨observedGeneration, hgeneration, h⟩ := bind_eq_ok.mp h
    obtain ⟨⟨affected, middle⟩, hupdate, h⟩ := bind_eq_ok.mp h
    dsimp only at h
    split at h
    · simp [throw, throwThe, MonadExceptOf.throw, bind, Except.bind] at h
    obtain ⟨rfl, rfl⟩ : (requestDeletion stored now).resource = claim ∧ middle = db' := by
      simpa [bind, Except.bind, pure, Except.pure] using h
    obtain ⟨hclaim, hhost, hreadable⟩ := updateClaims_ok
      (requestDeletion stored now) hupdate readable hstored (fun _ => rfl)
      (fun row hrow => of_decide_eq_true hrow)
      (fun row hostId hrow hdecode => ⟨by simp [hrow], by
        have hwrite := claimRecordFromRow_write (requestDeletion stored now) (some now)
          hdecode hgeneration
        exact hwrite⟩)
    exact .inr ⟨by simpa using hdeletion, rfl, hreadable, hhost, hclaim⟩
  · rename_i hdeletion
    obtain ⟨rfl, rfl⟩ : stored.resource = claim ∧ db = db' := by
      simpa [pure, Except.pure] using h
    exact .inl ⟨by simpa [Option.isSome_iff_ne_none] using hdeletion, rfl, rfl⟩

/-! ## `create_claim` -/

theorem fetchClaimRow_eq_none {id : HostClaimId} :
    fetchClaimRow db id = none ↔ ∀ row ∈ db.hostClaims, row.id ≠ id := by
  simp [fetchClaimRow]

theorem validateResources_ok {resources : HostResources}
    (h : validateResources resources = .ok ()) :
    resources.vcpus ≠ 0 ∧ resources.memoryBytes ≠ 0 ∧ resources.storageBytes ≠ 0 ∧
      resources.memoryBytes.toNat < 2 ^ 63 ∧ resources.storageBytes.toNat < 2 ^ 63 := by
  unfold validateResources at h
  by_cases hvcpus : resources.vcpus = 0
  · simp [hvcpus, throw, throwThe, MonadExceptOf.throw, bind, Except.bind] at h
  by_cases hmemory : resources.memoryBytes = 0
  · simp [hvcpus, hmemory, throw, throwThe, MonadExceptOf.throw, bind, Except.bind] at h
  by_cases hstorage : resources.storageBytes = 0
  · simp [hvcpus, hmemory, hstorage, throw, throwThe, MonadExceptOf.throw, bind,
      Except.bind] at h
  simp only [hvcpus, hmemory, hstorage, if_false] at h
  obtain ⟨_, hmemoryFits, h⟩ := bind_eq_ok.mp h
  obtain ⟨_, hstorageFits, -⟩ := bind_eq_ok.mp h
  exact ⟨hvcpus, hmemory, hstorage, (toI64_eq_ok.mp hmemoryFits).1, (toI64_eq_ok.mp hstorageFits).1⟩

/-- The row `create_claim` inserts decodes to the initial claim. -/
theorem newClaimRow_ok {id : HostClaimId} {spec : HostClaimSpec} {now : Timestamp}
    {row : HostClaimRow} (h : newClaimRow (initialClaim id spec now) = .ok row) :
    row.id = id ∧ claimRecordFromRow { claim := row, hostId := none } =
      .ok { resource := initialClaim id spec now, retry := RetryState.default } := by
  unfold newClaimRow at h
  obtain ⟨generation, hgeneration, h⟩ := bind_eq_ok.mp h
  obtain ⟨memoryBytes, hmemory, h⟩ := bind_eq_ok.mp h
  obtain ⟨storageBytes, hstorage, h⟩ := bind_eq_ok.mp h
  obtain ⟨observedGeneration, hobserved, h⟩ := bind_eq_ok.mp h
  cases h
  refine ⟨rfl, ?_⟩
  rw [claimRecordFromRow_eq_ok]
  simp only [toU32_fromU32, toU64_of_toI64 hgeneration, toU64_of_toI64 hmemory,
    toU64_of_toI64 hstorage, toU64_of_toI64 hobserved]
  simp [initialClaim, RetryState.default, toU32_zero]

/-- No Host refers to a claim that is not stored. -/
theorem joinHost_of_absent {row : HostClaimRow}
    (habsent : ∀ other ∈ db.hostClaims, other.id ≠ row.id) :
    joinHost db row = { claim := row, hostId := none } := by
  have hnone : fetchHostForClaimRow db row.id = none := by
    unfold fetchHostForClaimRow
    rw [Keyed.find?_eq_none_iff]
    intro host hmem hclaim
    obtain ⟨other, hother, hid⟩ := List.mem_map.mp (db.schema.hostReferences host hmem)
    exact habsent other hother (hid.trans hclaim)
  simp [joinHost, hnone]

/-- `create_claim` stores an initial claim, or finds the same claim and writes nothing. -/
theorem createClaim_ok {id : HostClaimId} {spec : HostClaimSpec} {now : Timestamp}
    {claim : HostClaim} (readable : db.Readable)
    (h : createClaim id spec now db = .ok (claim, db')) :
    (∃ stored, db.claim? id = some stored ∧ claim = stored.resource ∧ db' = db) ∨
    (db.claim? id = none ∧ claim = initialClaim id spec now ∧ db'.Readable ∧
      db'.host? = db.host? ∧
      db'.claim? = Function.update db.claim? id
        (some { resource := initialClaim id spec now, retry := RetryState.default })) := by
  unfold createClaim at h
  obtain ⟨_, -, h⟩ := bind_eq_ok.mp h
  cases hfetch : fetchClaimRow db id with
  | some row =>
    rw [hfetch] at h
    obtain ⟨stored, hdecode, h⟩ := bind_eq_ok.mp h
    have hstored : db.claim? id = some stored := by
      simp [claim?, hfetch, internal_eq_ok.mp hdecode, Except.toOption]
    split at h
    · cases h
      exact .inl ⟨stored, hstored, rfl, rfl⟩
    · simp [throw, throwThe, MonadExceptOf.throw] at h
  | none =>
    rw [hfetch] at h
    obtain ⟨row, hrow, h⟩ := bind_eq_ok.mp h
    obtain ⟨middle, hinsert, h⟩ := bind_eq_ok.mp h
    cases h
    obtain ⟨rfl, hdecode⟩ := newClaimRow_ok hrow
    obtain ⟨hclaims, hhosts⟩ := store_eq_ok.mp hinsert
    have habsent := fetchClaimRow_eq_none.mp hfetch
    have hhost := host?_congr hhosts
    have hclaim : db'.claim? = Function.update db.claim? row.id
        (some { resource := initialClaim row.id spec now, retry := RetryState.default }) := by
      funext id
      simp only [claim?, fetchClaimRow, hclaims]
      by_cases hid : id = row.id
      · subst hid
        rw [Keyed.find?_append_self habsent, Function.update_self]
        simp [joinHost_of_hosts hhosts, joinHost_of_absent habsent, hdecode, Except.toOption]
      · rw [Keyed.find?_append_ne (Ne.symm hid), Function.update_of_ne hid]
        simp only [funext (joinHost_of_hosts hhosts)]
        rfl
    refine .inr ⟨by simp [claim?, hfetch], rfl, ⟨fun row' hmem => ?_, fun row' hmem => ?_⟩,
      hhost, hclaim⟩
    · rw [hclaim]
      apply isSome_update
      intro hne
      rw [hclaims] at hmem
      rcases List.mem_append.mp hmem with hmem | hmem
      · exact readable.claims row' hmem
      · rw [List.mem_singleton.mp hmem] at hne
        exact absurd rfl hne
    · rw [hhost]
      exact readable.hosts row' (hhosts ▸ hmem)

/-! ## `ensure_host` -/

/-- The record of a Host `ensure_host` has just inserted. -/
def newHost (claimId : HostClaimId) (providerPlanId : String) (resources : HostResources)
    (hostId : HostId) (now : Timestamp) : HostRecord :=
  { resource := initialHost hostId claimId resources now
    providerPlanId := providerPlanId
    retry := RetryState.default }

theorem newHostRow_ok {claimId : HostClaimId} {providerPlanId : String}
    {resources : HostResources} {hostId : HostId} {now : Timestamp} {row : HostRow}
    (h : newHostRow (initialHost hostId claimId resources now) providerPlanId = .ok row) :
    row.id = hostId ∧ row.claimId = claimId ∧
      hostRecordFromRow row = .ok (newHost claimId providerPlanId resources hostId now) := by
  unfold newHostRow at h
  obtain ⟨memoryBytes, hmemory, h⟩ := bind_eq_ok.mp h
  obtain ⟨storageBytes, hstorage, h⟩ := bind_eq_ok.mp h
  cases h
  refine ⟨rfl, rfl, ?_⟩
  rw [hostRecordFromRow_eq_ok]
  simp only [toU32_fromU32, toU64_of_toI64 hmemory, toU64_of_toI64 hstorage]
  simp [newHost, initialHost, RetryState.default, toU32_zero, hostPhaseFromDb]

theorem fetchHostForClaimRow_eq_none {claimId : HostClaimId} :
    fetchHostForClaimRow db claimId = none ↔ ∀ row ∈ db.hosts, row.claimId ≠ claimId := by
  simp [fetchHostForClaimRow]

theorem insertHost_affected {row : HostRow} {inserted : Nat}
    (h : db.insertHost row = .ok (inserted, db'))
    (unbound : ∀ other ∈ db.hosts, other.claimId ≠ row.claimId) : inserted = 1 := by
  unfold insertHost at h
  rw [if_neg (by simpa using unbound)] at h
  obtain ⟨stored, -, heq⟩ := map_eq_ok.mp h
  exact (Prod.mk.inj heq).1.symm

/-- `INSERT INTO hosts` for a claim without a Host. -/
theorem insertHost_ok {row : HostRow} {host : HostRecord} {claim : HostClaimRecord}
    {inserted : Nat} (h : db.insertHost row = .ok (inserted, db')) (readable : db.Readable)
    (unbound : ∀ other ∈ db.hosts, other.claimId ≠ row.claimId)
    (hdecode : hostRecordFromRow row = .ok host)
    (hclaim : db.claim? row.claimId = some claim) :
    inserted = 1 ∧ db'.Readable ∧ db'.host? = Function.update db.host? row.id (some host) ∧
      db'.claim? = Function.update db.claim? row.claimId
        (some { claim with resource.status.hostId := some row.id }) := by
  unfold insertHost at h
  have hany : ¬ (db.hosts.any fun other => decide (other.claimId = row.claimId)) = true := by
    simpa using unbound
  rw [if_neg hany] at h
  obtain ⟨stored, hstore, heq⟩ := map_eq_ok.mp h
  obtain ⟨rfl, rfl⟩ := Prod.mk.inj heq
  obtain ⟨hclaims, hhosts⟩ := store_eq_ok.mp hstore
  -- the primary key of `hosts` leaves no other row with the new id
  have fresh : ∀ other ∈ db.hosts, other.id ≠ row.id := by
    have hids := stored.schema.hostIds
    rw [hhosts, List.map_append, List.nodup_append] at hids
    intro other hmem
    exact hids.2.2 other.id (List.mem_map_of_mem hmem) row.id (by simp)
  have hhost : stored.host? = Function.update db.host? row.id (some host) := by
    funext id
    rw [host?_of_append hhosts fresh]
    by_cases hid : id = row.id
    · subst hid
      simp [hdecode, Except.toOption]
    · rw [if_neg hid, Function.update_of_ne hid]
  have hclaim' : stored.claim? = Function.update db.claim? row.claimId
      (some { claim with resource.status.hostId := some row.id }) := by
    funext id
    rw [claim?_of_append hclaims hhosts unbound]
    by_cases hid : id = row.claimId
    · subst hid
      simp [hclaim]
    · rw [if_neg hid, Function.update_of_ne hid]
  refine ⟨rfl, ⟨fun claimRow hmem => ?_, fun hostRow hmem => ?_⟩, hhost, hclaim'⟩
  · rw [hclaim']
    exact isSome_update fun _ => readable.claims claimRow (hclaims ▸ hmem)
  · rw [hhost]
    apply isSome_update
    intro hne
    rw [hhosts] at hmem
    rcases List.mem_append.mp hmem with hmem | hmem
    · exact readable.hosts hostRow hmem
    · rw [List.mem_singleton.mp hmem] at hne
      exact absurd rfl hne

/-- How `ensure_host` assigns a Host to a claim without one. -/
structure Assigned (claim : HostClaimRecord) (claimId : HostClaimId) (providerPlanId : String)
    (resources : HostResources) (hostId : HostId) (now : Timestamp) (host : HostRecord)
    (db db' : Database) : Prop where
  unbound : ∀ row ∈ db.hosts, row.claimId ≠ claimId
  stored : ∃ row inserted inner observedGeneration updated,
    newHostRow (initialHost hostId claimId resources now) providerPlanId = .ok row ∧
    db.insertHost row = .ok (inserted, inner) ∧
    toI64 (assignHost claim hostId now).resource.status.observedGeneration
      "observed_generation" = .ok observedGeneration ∧
    inner.updateClaims (fun row => row.id = claimId ∧ row.deletionTimestamp = none)
      (fun row =>
        { row with
          observedGeneration := observedGeneration
          conditionsJson := (assignHost claim hostId now).resource.status.conditions
          retryAttempt := 0
          nextReconcileAtUnixMs := none
          lastErrorKind := none
          lastErrorMessage := none }) = .ok (updated, db')
  found : ∃ row ∈ db'.hosts, row.claimId = claimId ∧ hostRecordFromRow row = .ok host

/-- `ensure_host` finds the Host of a live claim, or assigns one. -/
theorem ensureHost_cases {claimId : HostClaimId} {providerPlanId : String}
    {resources : HostResources} {hostId : HostId} {now : Timestamp} {host : HostRecord}
    (h : ensureHost claimId providerPlanId resources hostId now db = .ok (host, db')) :
    ∃ claim, db.claim? claimId = some claim ∧ claim.resource.deletionTimestamp = none ∧
      ((db' = db ∧ ∃ row ∈ db.hosts, row.claimId = claimId ∧ hostRecordFromRow row = .ok host) ∨
        Assigned claim claimId providerPlanId resources hostId now host db db') := by
  unfold ensureHost at h
  obtain ⟨_, -, h⟩ := bind_eq_ok.mp h
  cases hfetch : fetchClaimRow db claimId with
  | none => simp [hfetch, throw, throwThe, MonadExceptOf.throw] at h
  | some row =>
  rw [hfetch] at h
  obtain ⟨claim, hdecode, h⟩ := bind_eq_ok.mp h
  have hclaim : db.claim? claimId = some claim := by
    simp [claim?, hfetch, internal_eq_ok.mp hdecode, Except.toOption]
  by_cases hdeletion : claim.resource.deletionTimestamp.isSome
  · simp [hdeletion, throw, throwThe, MonadExceptOf.throw, bind, Except.bind] at h
  refine ⟨claim, hclaim, by simpa using hdeletion, ?_⟩
  cases hbound : fetchHostForClaimRow db claimId with
  | some hostRow =>
    simp only [hdeletion, hbound] at h
    obtain ⟨stored, hstored, h⟩ := bind_eq_ok.mp h
    obtain ⟨_, -, h⟩ := bind_eq_ok.mp h
    cases h
    obtain ⟨hmem, howner⟩ := (Keyed.find?_eq_some_iff db.schema.hostClaimIds).mp hbound
    exact .inl ⟨rfl, hostRow, hmem, howner, internal_eq_ok.mp hstored⟩
  | none =>
    simp only [hdeletion, hbound] at h
    obtain ⟨hostRow, hhostRow, h⟩ := bind_eq_ok.mp h
    obtain ⟨⟨inserted, inner⟩, hinsert, h⟩ := bind_eq_ok.mp h
    have hunbound := fetchHostForClaimRow_eq_none.mp hbound
    obtain rfl : inserted = 1 :=
      insertHost_affected hinsert ((newHostRow_ok hhostRow).2.1 ▸ hunbound)
    simp only [if_true] at h
    obtain ⟨observedGeneration, hgeneration, h⟩ := bind_eq_ok.mp h
    obtain ⟨⟨updated, outer⟩, hupdate, h⟩ := bind_eq_ok.mp h
    dsimp only at h
    split at h
    · simp [throw, throwThe, MonadExceptOf.throw, bind, Except.bind] at h
    cases hfound : fetchHostForClaimRow outer claimId with
    | none =>
      simp [hfound, bind, Except.bind, pure, Except.pure, throw, throwThe,
        MonadExceptOf.throw] at h
    | some found =>
      simp only [hfound, pure_bind] at h
      obtain ⟨decoded, hdecoded, h⟩ := bind_eq_ok.mp h
      obtain ⟨_, -, h⟩ := bind_eq_ok.mp h
      cases h
      obtain ⟨hmem, howner⟩ := (Keyed.find?_eq_some_iff db'.schema.hostClaimIds).mp hfound
      exact .inr ⟨hunbound, ⟨hostRow, 1, inner, observedGeneration, updated, hhostRow, hinsert,
        hgeneration, hupdate⟩, found, hmem, howner, internal_eq_ok.mp hdecoded⟩

/-- `ensure_host` returns the Host a live claim has, and else inserts one and binds the claim to
    it. -/
theorem ensureHost_ok {claimId : HostClaimId} {providerPlanId : String}
    {resources : HostResources} {hostId : HostId} {now : Timestamp} {host : HostRecord}
    (readable : db.Readable)
    (h : ensureHost claimId providerPlanId resources hostId now db = .ok (host, db')) :
    ∃ claim, db.claim? claimId = some claim ∧ claim.resource.deletionTimestamp = none ∧
      ((db' = db ∧ db.host? host.resource.id = some host ∧ host.resource.claimId = claimId) ∨
       (claim.resource.status.hostId = none ∧ db'.Readable ∧
        host = newHost claimId providerPlanId resources hostId now ∧
        db'.host? = Function.update db.host? hostId (some host) ∧
        db'.claim? = Function.update db.claim? claimId (some (assignHost claim hostId now)))) := by
  obtain ⟨claim, hclaim, hlive, hcases⟩ := ensureHost_cases h
  refine ⟨claim, hclaim, hlive, ?_⟩
  rcases hcases with ⟨rfl, row, hmem, howner, hdecode⟩ | ⟨hunbound, hstored, hfound⟩
  · have hcolumns := hostColumns hdecode
    refine .inl ⟨rfl, host?_eq_some.mpr ⟨row, hmem, ?_, hdecode⟩, ?_⟩
    · exact hcolumns.id.symm
    · rw [hcolumns.claimId, howner]
  · obtain ⟨row, inserted, inner, observedGeneration, updated, hrow, hinsert, hgeneration,
      hupdate⟩ := hstored
    obtain ⟨hrowId, hrowClaim, hrowDecode⟩ := newHostRow_ok hrow
    obtain ⟨-, hreadable, hhost, hbind⟩ := insertHost_ok hinsert readable
      (hrowClaim ▸ hunbound) hrowDecode (hrowClaim ▸ hclaim)
    rw [hrowId] at hhost hbind
    rw [hrowClaim] at hbind
    have hmiddle : inner.claim? claimId =
        some { claim with resource.status.hostId := some hostId } := by
      rw [hbind, Function.update_self]
    obtain ⟨hassign, hsame, hreadable'⟩ := updateClaims_ok
      (assignHost claim hostId now) hupdate hreadable hmiddle (fun _ => rfl)
      (fun row hrow => (of_decide_eq_true hrow).1)
      (fun row joined hrow hdecode => by
        have hcolumn : claim.resource.deletionTimestamp = row.deletionTimestamp :=
          (claimColumns hdecode).deletionTimestamp
        have hnone : row.deletionTimestamp = none := hcolumn.symm.trans hlive
        refine ⟨by simp [hrow, hnone], ?_⟩
        have hwrite := claimRecordFromRow_write (assignHost claim hostId now)
          row.deletionTimestamp hdecode hgeneration
        rw [← hcolumn] at hwrite ⊢
        exact hwrite)
    obtain ⟨found, hmem, howner, hdecoded⟩ := hfound
    have hassigned : db'.claim? claimId = some (assignHost claim hostId now) := by
      rw [hassign, Function.update_self]
    have hjoined : (assignHost claim hostId now).resource.status.hostId = some hostId := rfl
    obtain ⟨found', hfound', howner', hid⟩ := (claim?_hostId_row hassigned).mp hjoined
    have hsameRow : found = found' := List.inj_on_of_nodup_map db'.schema.hostClaimIds hmem
      hfound' (howner.trans howner'.symm)
    have hview : db'.host? hostId = some host :=
      host?_eq_some.mpr ⟨found, hmem, hsameRow ▸ hid, hdecoded⟩
    rw [hsame, hhost, Function.update_self] at hview
    cases hview
    refine .inr ⟨?_, hreadable', rfl, hsame.trans hhost, ?_⟩
    · rw [Option.eq_none_iff_forall_ne_some]
      intro bound hbound
      obtain ⟨old, hold, howner, -⟩ := (claim?_hostId_row hclaim).mp hbound
      exact hunbound old hold howner
    · rw [hassign, hbind, Function.update_idem]

theorem newHostRow_succeeds {resources : HostResources} (claimId : HostClaimId) (hostId : HostId)
    (providerPlanId : String) (now : Timestamp) (hvalid : validateResources resources = .ok ()) :
    ∃ row, newHostRow (initialHost hostId claimId resources now) providerPlanId = .ok row ∧
      (0 < textLength providerPlanId → row.Checks) ∧ row.providerResourceId = none := by
  obtain ⟨hvcpus, hmemory, hstorage, hmemoryFits, hstorageFits⟩ := validateResources_ok hvalid
  have hpositive : ∀ value : Nat, value ≠ 0 → value < 2 ^ 63 → 0 < Int64.ofNat value := by
    intro value hne hlt
    rw [Int64.lt_iff_toInt_lt, Int64.toInt_ofNat_of_lt hlt]
    change (0 : Int) < value
    omega
  have hmemoryRow : toI64 resources.memoryBytes "memory_bytes" = _ :=
    toI64_eq_ok.mpr ⟨hmemoryFits, rfl⟩
  have hstorageRow : toI64 resources.storageBytes "storage_bytes" = _ :=
    toI64_eq_ok.mpr ⟨hstorageFits, rfl⟩
  unfold newHostRow initialHost
  dsimp only
  rw [hmemoryRow, hstorageRow]
  refine ⟨_, rfl, fun hplan => ⟨?_, ?_, ?_, hplan, List.mem_cons_self, Int64.le_refl _⟩,
    rfl⟩
  · have hlt := UInt32.toNat_lt resources.vcpus
    refine hpositive _ (fun hzero => hvcpus ?_) (by omega)
    exact UInt32.toNat_inj.mp hzero
  · exact hpositive _ (fun hzero => hmemory (UInt64.toNat_inj.mp hzero)) hmemoryFits
  · exact hpositive _ (fun hzero => hstorage (UInt64.toNat_inj.mp hzero)) hstorageFits

/-- A Host without a provider resource can be inserted for a stored claim that has none. -/
theorem insertHost_succeeds {row : HostRow} (hchecks : row.Checks)
    (hresource : row.providerResourceId = none) (hfresh : ∀ other ∈ db.hosts, other.id ≠ row.id)
    (unbound : ∀ other ∈ db.hosts, other.claimId ≠ row.claimId)
    (hclaim : row.claimId ∈ db.hostClaims.map (·.id)) :
    ∃ db', db.insertHost row = .ok (1, db') ∧ db'.hostClaims = db.hostClaims ∧
      db'.hosts = db.hosts ++ [row] := by
  have hnodup : ∀ {κ : Type} (key : HostRow → κ), (db.hosts.map key).Nodup →
      (∀ other ∈ db.hosts, key other ≠ key row) → ((db.hosts ++ [row]).map key).Nodup := by
    intro κ key hkeys hne
    rw [List.map_append]
    refine List.Nodup.append hkeys (List.nodup_singleton _) ?_
    intro value hvalue hnew
    obtain ⟨other, hmem, rfl⟩ := List.mem_map.mp hvalue
    exact hne other hmem (List.mem_singleton.mp hnew)
  have schema : Schema db.hostClaims (db.hosts ++ [row]) := by
    refine ⟨db.schema.claimIds, db.schema.claimChecks, hnodup _ db.schema.hostIds hfresh,
      hnodup _ db.schema.hostClaimIds unbound, fun other hmem => ?_, ?_, fun other hmem => ?_⟩
    · rcases List.mem_append.mp hmem with hmem | hmem
      · exact db.schema.hostReferences other hmem
      · rw [List.mem_singleton.mp hmem]
        exact hclaim
    · rw [List.filterMap_append]
      simp [hresource, db.schema.providerResourceIds]
    · rcases List.mem_append.mp hmem with hmem | hmem
      · exact db.schema.hostChecks other hmem
      · rw [List.mem_singleton.mp hmem]
        exact hchecks
  refine ⟨⟨_, _, schema⟩, ?_, rfl, rfl⟩
  have hany : ¬ (db.hosts.any fun other => decide (other.claimId = row.claimId)) = true := by
    simpa using unbound
  unfold insertHost store
  rw [if_neg hany, dif_pos schema]
  rfl

/-- `ensure_host` succeeds for a live claim without a Host, if it draws an id no Host has. -/
theorem ensureHost_succeeds {claimId : HostClaimId} {providerPlanId : String}
    {resources : HostResources} {hostId : HostId} {claim : HostClaimRecord} (now : Timestamp)
    (hvalid : validateResources resources = .ok ()) (hplan : 0 < textLength providerPlanId)
    (hclaim : db.claim? claimId = some claim) (hlive : claim.resource.deletionTimestamp = none)
    (hunbound : claim.resource.status.hostId = none) (hfresh : ∀ row ∈ db.hosts, row.id ≠ hostId) :
    ∃ host db', ensureHost claimId providerPlanId resources hostId now db = .ok (host, db') := by
  have hnone : ∀ row ∈ db.hosts, row.claimId ≠ claimId := by
    intro row hmem howner
    have hbound := (claim?_hostId_row hclaim).mpr ⟨row, hmem, howner, rfl⟩
    rw [hunbound] at hbound
    cases hbound
  obtain ⟨claimRow, hclaimMem, hclaimId, hdecode⟩ := claim?_eq_some.mp hclaim
  have hfetch : fetchClaimRow db claimId = some (joinHost db claimRow) := by
    unfold fetchClaimRow
    rw [(Keyed.find?_eq_some_iff db.schema.claimIds).mpr ⟨hclaimMem, hclaimId⟩]
    rfl
  obtain ⟨row, hrow, hchecks, hresource⟩ :=
    newHostRow_succeeds claimId hostId providerPlanId now hvalid
  obtain ⟨hrowId, hrowClaim, hrowDecode⟩ := newHostRow_ok hrow
  obtain ⟨inner, hinsert, hclaims, hhosts⟩ := insertHost_succeeds (hchecks hplan) hresource
    (hrowId ▸ hfresh) (hrowClaim ▸ hnone)
    (List.mem_map.mpr ⟨claimRow, hclaimMem, hclaimId.trans hrowClaim.symm⟩)
  have hgeneration : toI64 (assignHost claim hostId now).resource.status.observedGeneration
      "observed_generation" = _ := toI64_eq_ok.mpr ⟨claim?_generation hclaim, rfl⟩
  obtain ⟨db', hupdate⟩ := updateClaims_succeeds inner
    (fun row => row.id = claimId ∧ row.deletionTimestamp = none)
    (fun row =>
      { row with
        observedGeneration := Int64.ofNat claim.resource.generation.toNat
        conditionsJson := (assignHost claim hostId now).resource.status.conditions
        retryAttempt := 0
        nextReconcileAtUnixMs := none
        lastErrorKind := none
        lastErrorMessage := none }) (fun _ => rfl)
    (fun row _ hchecks => ⟨hchecks.1, hchecks.2.1, hchecks.2.2.1, hchecks.2.2.2.1,
      nonneg_toI64 hgeneration, Int64.le_refl _⟩)
  have hliveRow : claimRow.deletionTimestamp = none :=
    (claimColumns hdecode).deletionTimestamp.symm.trans hlive
  have haffected := updateClaims_affected claimId hupdate (hclaims ▸ hclaimMem)
    (by simp [hclaimId, hliveRow])
    fun row hselected => (of_decide_eq_true hselected).1
  have hfound : fetchHostForClaimRow db' claimId = some row := by
    unfold fetchHostForClaimRow
    rw [(updateClaims_rows hupdate).2.1, hhosts, ← hrowClaim]
    exact Keyed.find?_append_self (hrowClaim ▸ hnone)
  refine ⟨newHost claimId providerPlanId resources hostId now, db', ?_⟩
  unfold ensureHost
  rw [hvalid]
  refine bind_eq_ok.mpr ⟨(), rfl, ?_⟩
  rw [hfetch]
  refine bind_eq_ok.mpr ⟨claim, internal_eq_ok.mpr hdecode, ?_⟩
  simp only [hlive, fetchHostForClaimRow_eq_none.mpr hnone, Option.isSome_none]
  refine bind_eq_ok.mpr ⟨row, hrow, bind_eq_ok.mpr ⟨_, hinsert, ?_⟩⟩
  simp only [if_true]
  refine bind_eq_ok.mpr ⟨_, hgeneration, bind_eq_ok.mpr ⟨_, hupdate, ?_⟩⟩
  dsimp only
  rw [if_neg (not_not.mpr haffected)]
  simp only [pure_bind, hfound]
  refine bind_eq_ok.mpr ⟨_, internal_eq_ok.mpr hrowDecode, bind_eq_ok.mpr ⟨(), ?_, rfl⟩⟩
  unfold validateHostAssignment
  rw [if_neg (by simp [newHost, initialHost])]

/-- After `ensure_host` the claim has a Host row. -/
theorem ensureHost_bound {claimId : HostClaimId} {providerPlanId : String}
    {resources : HostResources} {hostId : HostId} {now : Timestamp} {host : HostRecord}
    (h : ensureHost claimId providerPlanId resources hostId now db = .ok (host, db')) :
    ∃ row ∈ db'.hosts, row.claimId = claimId := by
  obtain ⟨claim, -, -, hcases⟩ := ensureHost_cases h
  rcases hcases with ⟨rfl, row, hmem, howner, -⟩ | ⟨-, -, row, hmem, howner, -⟩
  · exact ⟨row, hmem, howner⟩
  · exact ⟨row, hmem, howner⟩

/-! ## `save_host` -/

theorem saveHost_rows {record : HostRecord} (h : saveHost record db = .ok ((), db')) :
    (∃ row ∈ db.hosts, row.id = record.resource.id) ∧ db'.hostClaims = db.hostClaims ∧
      db'.hosts = db.hosts.map fun row =>
        if row.id = record.resource.id then
          { row with
            phase := hostPhaseToDb record.resource.status.phase
            providerResourceId := record.resource.status.providerResourceId
            observedAt := record.resource.status.observedAt
            conditionsJson := record.resource.status.conditions
            retryAttempt := fromU32 record.retry.attempt
            nextReconcileAtUnixMs := record.retry.nextReconcileAtUnixMs
            lastErrorKind := record.retry.lastErrorKind
            lastErrorMessage := record.retry.lastErrorMessage }
        else row := by
  unfold saveHost updateHost at h
  obtain ⟨⟨affected, middle⟩, hupdate, hrest⟩ := bind_eq_ok.mp h
  obtain ⟨stored, hstore, heq⟩ := map_eq_ok.mp hupdate
  obtain ⟨rfl, rfl⟩ := Prod.mk.inj heq
  dsimp only at hrest
  split at hrest
  · simp [throw, throwThe, MonadExceptOf.throw, bind, Except.bind] at hrest
  · rename_i haffected
    have hdb : stored = db' := by simpa [bind, Except.bind, pure, Except.pure] using hrest
    subst hdb
    obtain ⟨hclaims, hhosts⟩ := store_eq_ok.mp hstore
    refine ⟨?_, hclaims, hhosts⟩
    by_contra hnone
    apply haffected
    rw [List.countP_eq_zero]
    intro row hmem hid
    exact hnone ⟨row, hmem, by simpa using hid⟩

/-- `save_host` replaces the status of a stored Host. -/
theorem saveHost_records {record stored : HostRecord} (h : saveHost record db = .ok ((), db'))
    (hstored : db.host? record.resource.id = some stored) :
    db'.claim? = db.claim? ∧
      db'.host? = Function.update db.host? record.resource.id
        (some (stored.withStatus record)) := by
  obtain ⟨-, hclaims, hhosts⟩ := saveHost_rows h
  refine ⟨claim?_congr hclaims (joinHost_of_map hhosts fun _ => ⟨rfl, rfl⟩), ?_⟩
  funext id
  rw [host?_of_map hhosts (fun _ => rfl)]
  by_cases hkey : id = record.resource.id
  · subst hkey
    obtain ⟨row', hmem', hrow', hdecode⟩ := host?_eq_some.mp hstored
    rw [Function.update_self, if_pos rfl,
      (Keyed.find?_eq_some_iff db.schema.hostIds).mpr ⟨hmem', hrow'⟩, Option.bind_some,
      toOption_eq_some, hostRecordFromRow_eq_ok]
    have hcolumns := hostRecordFromRow_eq_ok.mp hdecode
    simp only [HostRecord.withStatus, toU32_fromU32, hostPhaseFromDb_toDb]
    simp only [hcolumns, and_self]
  · rw [Function.update_of_ne hkey, if_neg hkey]

/-- `save_host` replaces the stored status of one Host and keeps the tables readable. -/
theorem saveHost_ok {record : HostRecord} (readable : db.Readable)
    (h : saveHost record db = .ok ((), db')) :
    ∃ stored, db.host? record.resource.id = some stored ∧ db'.Readable ∧
      db'.claim? = db.claim? ∧
      db'.host? = Function.update db.host? record.resource.id
        (some (stored.withStatus record)) := by
  obtain ⟨⟨row, hmem, hid⟩, hclaims, hhosts⟩ := saveHost_rows h
  obtain ⟨stored, hstored⟩ := Option.isSome_iff_exists.mp (readable.hosts row hmem)
  rw [hid] at hstored
  obtain ⟨hclaim, hhost⟩ := saveHost_records h hstored
  refine ⟨stored, hstored, ⟨fun claimRow hclaimMem => ?_, fun hostRow hhostMem => ?_⟩, hclaim,
    hhost⟩
  · rw [hclaim]
    exact readable.claims claimRow (hclaims ▸ hclaimMem)
  · rw [hhosts] at hhostMem
    obtain ⟨old, hold, rfl⟩ := List.mem_map.mp hhostMem
    rw [hhost]
    apply isSome_update
    intro hne
    split at hne
    · rename_i hkey
      exact absurd hkey hne
    · rename_i hkey
      rw [if_neg hkey]
      exact readable.hosts old hold

theorem hostPhaseToDb_mem (phase : HostPhase) :
    hostPhaseToDb phase ∈ ["pending", "provisioning", "ready", "deleting", "failed"] := by
  cases phase <;> simp [hostPhaseToDb]

/-- An update of one Host that keeps its keys and checks succeeds, unless it records a provider
    resource that another Host has. -/
theorem updateHost_succeeds (db : Database) (id : HostId) (set : HostRow → HostRow)
    (keep : ∀ row, (set row).id = row.id ∧ (set row).claimId = row.claimId)
    (free : ∀ row ∈ db.hosts, ∀ other ∈ db.hosts, other.id ≠ id → ∀ resourceId,
      (set row).providerResourceId = some resourceId → other.providerResourceId ≠ some resourceId)
    (checks : ∀ row ∈ db.hosts, row.Checks → (set row).Checks) :
    ∃ db', db.updateHost id set = .ok (db.hosts.countP fun row => row.id = id, db') := by
  have hkeys : ∀ row : HostRow, (if row.id = id then set row else row).id = row.id ∧
      (if row.id = id then set row else row).claimId = row.claimId := by
    intro row
    split
    · exact keep row
    · exact ⟨rfl, rfl⟩
  have hids : (db.hosts.map fun row => if row.id = id then set row else row).map (·.id) =
      db.hosts.map (·.id) := by
    rw [List.map_map]
    exact List.map_congr_left fun row _ => (hkeys row).1
  have hclaimIds : (db.hosts.map fun row => if row.id = id then set row else row).map (·.claimId) =
      db.hosts.map (·.claimId) := by
    rw [List.map_map]
    exact List.map_congr_left fun row _ => (hkeys row).2
  have hresources : ((db.hosts.map fun row => if row.id = id then set row else row).filterMap
      (·.providerResourceId)).Nodup := by
    have hdiffer := List.pairwise_filterMap.mp db.schema.providerResourceIds
    have hdistinct := List.pairwise_map.mp db.schema.hostIds
    refine List.pairwise_filterMap.mpr (List.pairwise_map.mpr ?_)
    refine (hdiffer.and hdistinct).imp_of_mem fun {first second} hfirst hsecond hboth => ?_
    obtain ⟨hdiffer, hne⟩ := hboth
    intro resourceId hresource other hother heq
    subst heq
    by_cases hkey : first.id = id
    · have hkey' : second.id ≠ id := fun heq => hne (hkey.trans heq.symm)
      rw [if_pos hkey] at hresource
      rw [if_neg hkey'] at hother
      exact free first hfirst second hsecond hkey' _ hresource hother
    · rw [if_neg hkey] at hresource
      by_cases hkey' : second.id = id
      · rw [if_pos hkey'] at hother
        exact free second hsecond first hfirst hkey _ hother hresource
      · rw [if_neg hkey'] at hother
        exact hdiffer _ hresource _ hother rfl
  have schema : Schema db.hostClaims
      (db.hosts.map fun row => if row.id = id then set row else row) := by
    refine ⟨db.schema.claimIds, db.schema.claimChecks, ?_, ?_, ?_, hresources, ?_⟩
    · rw [hids]
      exact db.schema.hostIds
    · rw [hclaimIds]
      exact db.schema.hostClaimIds
    · intro row hmem
      obtain ⟨old, hold, rfl⟩ := List.mem_map.mp hmem
      rw [(hkeys old).2]
      exact db.schema.hostReferences old hold
    · intro row hmem
      obtain ⟨old, hold, rfl⟩ := List.mem_map.mp hmem
      have hchecks := db.schema.hostChecks old hold
      split
      · exact checks old hold hchecks
      · exact hchecks
  exact ⟨⟨_, _, schema⟩, by simp [updateHost, store, schema, Except.map]⟩

/-- `save_host` succeeds for a stored Host, unless another Host has its provider resource. -/
theorem saveHost_succeeds {record : HostRecord} {row : HostRow} (hmem : row ∈ db.hosts)
    (hid : row.id = record.resource.id)
    (hfree : ∀ other ∈ db.hosts, other.id ≠ record.resource.id → ∀ resourceId,
      record.resource.status.providerResourceId = some resourceId →
        other.providerResourceId ≠ some resourceId) :
    ∃ db', saveHost record db = .ok ((), db') := by
  obtain ⟨db', hupdate⟩ := updateHost_succeeds db record.resource.id
    (fun row =>
      { row with
        phase := hostPhaseToDb record.resource.status.phase
        providerResourceId := record.resource.status.providerResourceId
        observedAt := record.resource.status.observedAt
        conditionsJson := record.resource.status.conditions
        retryAttempt := fromU32 record.retry.attempt
        nextReconcileAtUnixMs := record.retry.nextReconcileAtUnixMs
        lastErrorKind := record.retry.lastErrorKind
        lastErrorMessage := record.retry.lastErrorMessage })
    (fun _ => ⟨rfl, rfl⟩) (fun _ _ => hfree)
    (fun _ _ hchecks => ⟨hchecks.1, hchecks.2.1, hchecks.2.2.1, hchecks.2.2.2.1,
      hostPhaseToDb_mem _, nonneg_fromU32 _⟩)
  have haffected : (db.hosts.countP fun row => row.id = record.resource.id) ≠ 0 := by
    rw [ne_eq, List.countP_eq_zero]
    intro hnone
    exact hnone row hmem (decide_eq_true hid)
  refine ⟨db', ?_⟩
  unfold saveHost
  refine bind_eq_ok.mpr ⟨_, hupdate, ?_⟩
  dsimp only
  rw [if_neg haffected]
  rfl

/-- A provider resource is recorded for one Host at most. -/
theorem host_of_providerResourceId {first second : HostRow} {resourceId : String}
    (hfirst : first ∈ db.hosts) (hsecond : second ∈ db.hosts)
    (hresource : first.providerResourceId = some resourceId)
    (hresource' : second.providerResourceId = some resourceId) : first = second := by
  by_contra hne
  have hdiffer := List.pairwise_filterMap.mp db.schema.providerResourceIds
  have hsymm : Std.Symm fun first second : HostRow => ∀ resourceId,
      first.providerResourceId = some resourceId → ∀ resourceId',
        second.providerResourceId = some resourceId' → resourceId ≠ resourceId' :=
    ⟨fun first second h resourceId hfirst resourceId' hsecond =>
      (h resourceId' hsecond resourceId hfirst).symm⟩
  exact hdiffer.forall hfirst hsecond hne _ hresource _ hresource' rfl

/-- `save_host` succeeds where the provider resource of the Host stays what it is. -/
theorem saveHost_succeeds_of_kept {record stored : HostRecord}
    (hstored : db.host? record.resource.id = some stored)
    (hkept : record.resource.status.providerResourceId =
      stored.resource.status.providerResourceId) :
    ∃ db', saveHost record db = .ok ((), db') := by
  obtain ⟨row, hmem, hid, hdecode⟩ := host?_eq_some.mp hstored
  refine saveHost_succeeds hmem hid fun other hother hne resourceId hresource heq => hne ?_
  rw [hkept, (hostColumns hdecode).providerResourceId] at hresource
  rw [← host_of_providerResourceId hmem hother hresource heq]
  exact hid

/-! ## `finalize_claim` -/

theorem finalizeClaim_rows {claimId : HostClaimId} (h : finalizeClaim claimId db = .ok ((), db')) :
    (∃ row ∈ db.hostClaims, row.id = claimId) ∧
      db'.hostClaims = (db.hostClaims.filter fun row => row.id ≠ claimId) ∧
      db'.hosts = db.hosts.filter fun row => row.claimId ≠ claimId := by
  unfold finalizeClaim at h
  obtain ⟨⟨affected, middle⟩, hdelete, h⟩ := bind_eq_ok.mp h
  obtain ⟨stored, hstore, heq⟩ := map_eq_ok.mp hdelete
  obtain ⟨rfl, rfl⟩ := Prod.mk.inj heq
  dsimp only at h
  split at h
  · simp [throw, throwThe, MonadExceptOf.throw, bind, Except.bind] at h
  rename_i haffected
  cases h
  obtain ⟨hclaims, hhosts⟩ := store_eq_ok.mp hstore
  refine ⟨?_, hclaims, hhosts⟩
  by_contra hnone
  apply haffected
  rw [List.countP_eq_zero]
  intro row hmem hid
  exact hnone ⟨row, hmem, of_decide_eq_true hid⟩

/-- `finalize_claim` succeeds for a stored claim. -/
theorem finalizeClaim_succeeds {claimId : HostClaimId} {row : HostClaimRow}
    (hmem : row ∈ db.hostClaims) (hid : row.id = claimId) :
    ∃ db', finalizeClaim claimId db = .ok ((), db') := by
  have schema : Schema (db.hostClaims.filter fun row => row.id ≠ claimId)
      (db.hosts.filter fun row => row.claimId ≠ claimId) := by
    refine ⟨?_, ?_, ?_, ?_, ?_, ?_, ?_⟩
    · exact (List.filter_sublist.map _).nodup db.schema.claimIds
    · exact fun row hmem => db.schema.claimChecks row (List.mem_filter.mp hmem).1
    · exact (List.filter_sublist.map _).nodup db.schema.hostIds
    · exact (List.filter_sublist.map _).nodup db.schema.hostClaimIds
    · intro host hhost
      obtain ⟨hhost, hne⟩ := List.mem_filter.mp hhost
      obtain ⟨claim, hclaim, howner⟩ := List.mem_map.mp (db.schema.hostReferences host hhost)
      refine List.mem_map.mpr ⟨claim, List.mem_filter.mpr ⟨hclaim, ?_⟩, howner⟩
      rw [howner]
      exact hne
    · exact (List.filter_sublist.filterMap _).nodup db.schema.providerResourceIds
    · exact fun row hmem => db.schema.hostChecks row (List.mem_filter.mp hmem).1
  have haffected : (db.hostClaims.countP fun row => row.id = claimId) ≠ 0 := by
    rw [ne_eq, List.countP_eq_zero]
    intro hnone
    exact hnone row hmem (decide_eq_true hid)
  refine ⟨⟨_, _, schema⟩, ?_⟩
  unfold finalizeClaim deleteClaim store
  rw [dif_pos schema]
  refine bind_eq_ok.mpr ⟨_, rfl, ?_⟩
  dsimp only
  rw [if_neg haffected]
  rfl

/-- `finalize_claim` removes a stored claim and the Host bound to it. -/
theorem finalizeClaim_ok {claimId : HostClaimId} (readable : db.Readable)
    (h : finalizeClaim claimId db = .ok ((), db')) :
    (∃ claim, db.claim? claimId = some claim) ∧ db'.Readable ∧
      db'.claim? = Function.update db.claim? claimId none ∧
      ∀ hostId, db'.host? hostId =
        (db.host? hostId).filter fun host => host.resource.claimId ≠ claimId := by
  obtain ⟨hstored, hclaims, hhosts⟩ := finalizeClaim_rows h
  have hclaim : db'.claim? = Function.update db.claim? claimId none := by
    funext id
    simp only [claim?, fetchClaimRow, hclaims]
    rw [Keyed.find?_filter db.schema.claimIds]
    cases hfind : db.hostClaims.find? fun row => decide (row.id = id) with
    | none =>
      by_cases hid : id = claimId
      · subst hid
        simp
      · simp [Function.update_of_ne hid, hfind, claim?, fetchClaimRow]
    | some row =>
      have hrow : row.id = id := by simpa using List.find?_some hfind
      by_cases hid : id = claimId
      · subst hid
        simp [Option.filter, hrow]
      · have hjoin : joinHost db' row = joinHost db row := by
          simp only [joinHost, fetchHostForClaimRow, hhosts]
          rw [Keyed.find?_filter db.schema.hostClaimIds]
          cases hhost : db.hosts.find? fun other => decide (other.claimId = row.id) with
          | none => rfl
          | some other =>
            have hother : other.claimId = row.id := by simpa using List.find?_some hhost
            simp [Option.filter, hother, hrow, hid]
        simp [Option.filter, hrow, hid, hjoin, claim?, fetchClaimRow, hfind]
  have hhost : ∀ hostId, db'.host? hostId =
      (db.host? hostId).filter fun host => host.resource.claimId ≠ claimId := by
    intro hostId
    simp only [host?, hhosts]
    rw [Keyed.find?_filter db.schema.hostIds]
    cases hfind : db.hosts.find? fun row => decide (row.id = hostId) with
    | none => rfl
    | some row =>
      cases hdecode : hostRecordFromRow row with
      | error error =>
        by_cases hrow : row.claimId = claimId <;>
          simp [Option.filter, hrow, hdecode, Except.toOption]
      | ok host =>
        have hcolumn := (hostColumns hdecode).claimId
        by_cases hrow : row.claimId = claimId <;>
          simp [Option.filter, hrow, hdecode, Except.toOption, hcolumn]
  refine ⟨?_, ⟨fun claimRow hmem => ?_, fun hostRow hmem => ?_⟩, hclaim, hhost⟩
  · obtain ⟨row, hmem, rfl⟩ := hstored
    exact Option.isSome_iff_exists.mp (readable.claims row hmem)
  · rw [hclaims] at hmem
    obtain ⟨hmem, hne⟩ := List.mem_filter.mp hmem
    rw [hclaim, Function.update_of_ne (of_decide_eq_true hne)]
    exact readable.claims claimRow hmem
  · rw [hhosts] at hmem
    obtain ⟨hmem, hne⟩ := List.mem_filter.mp hmem
    obtain ⟨host, hsome, hdecode⟩ := readable.host_of_row hmem
    have hcolumn := (hostColumns hdecode).claimId
    rw [hhost, hsome]
    simpa [Option.filter, hcolumn] using hne

end Storage

end ControlPlane
