import ControlPlane.Interaction.Transaction
import ControlPlane.Storage.Specs

/-!
# The methods of `Storage`, statement by statement

Each method as the statements it runs on the one connection of the pool, with the places where it
begins and commits its transaction and where it returns early. Each is the atomic operation of
the same name: what an early return leaves behind is dropped with the transaction, and what
follows the last write cannot fail.
-/

namespace ControlPlane

open Interaction Interaction.Session

namespace Storage.Statements

/-- A method of `Storage`. -/
abbrev Method (α : Type) := Session Database AppError α

/-- `Storage::create_claim`. -/
def createClaim (id : HostClaimId) (spec : HostClaimSpec) (now : Timestamp) :
    Method HostClaim := do
  lift (validateResources spec.resources)
  start
  match ← query fun db => fetchClaimRow db id with
  | some row =>
    let existing ← lift (internal (claimRecordFromRow row))
    if existing.resource.spec = spec then
      commit
      return existing.resource
    else
      fail (.conflict "HostClaim" id.text "the existing claim has a different spec")
  | none =>
    let claim := initialClaim id spec now
    let row ← lift (newClaimRow claim)
    execute fun db => (db.insertClaim row).map fun db' => ((), db')
    commit
    return claim

/-- `Storage::mark_claim_deleting`. -/
def markClaimDeleting (id : HostClaimId) (now : Timestamp) : Method HostClaim := do
  start
  match ← query fun db => fetchClaimRow db id with
  | none => fail (.notFound "HostClaim" id.text)
  | some row =>
    let record ← lift (internal (claimRecordFromRow row))
    if record.resource.deletionTimestamp.isNone then
      let record := requestDeletion record now
      let observedGeneration ←
        lift (toI64 record.resource.status.observedGeneration "observed_generation")
      let rowsAffected ← execute fun db => db.updateClaims (fun row => row.id = id) fun row =>
        { row with
          deletionTimestamp := record.resource.deletionTimestamp
          observedGeneration := observedGeneration
          conditionsJson := record.resource.status.conditions
          retryAttempt := 0
          nextReconcileAtUnixMs := none
          lastErrorKind := none
          lastErrorMessage := none }
      if rowsAffected ≠ 1 then
        fail (.internal "HostClaim disappeared while marking deletion")
      else
        commit
        return record.resource
    else
      commit
      return record.resource

/-- The end of `Storage::ensure_host`: the Host of the claim is read back and checked. -/
def readAssignment (claimId : HostClaimId) (providerPlanId : String)
    (resources : HostResources) : Method HostRecord := do
  match ← query fun db => fetchHostForClaimRow db claimId with
  | none => fail (.internal "Host insert completed without a Host row")
  | some row =>
    let host ← lift (internal (hostRecordFromRow row))
    lift (validateHostAssignment host providerPlanId resources)
    commit
    return host

/-- `Storage::ensure_host`; `hostId` is the `HostId::new()` of the call. -/
def ensureHost (claimId : HostClaimId) (providerPlanId : String) (resources : HostResources)
    (hostId : HostId) (now : Timestamp) : Method HostRecord := do
  lift (validateResources resources)
  start
  match ← query fun db => fetchClaimRow db claimId with
  | none => fail (.notFound "HostClaim" claimId.text)
  | some row =>
    let claim ← lift (internal (claimRecordFromRow row))
    if claim.resource.deletionTimestamp.isSome then
      fail (.conflict "HostClaim" claimId.text "the claim is being deleted")
    else
      match ← query fun db => fetchHostForClaimRow db claimId with
      | some row =>
        let host ← lift (internal (hostRecordFromRow row))
        lift (validateHostAssignment host providerPlanId resources)
        commit
        return host
      | none =>
        let host := initialHost hostId claimId resources now
        let row ← lift (newHostRow host providerPlanId)
        let inserted ← execute fun db => db.insertHost row
        if inserted = 1 then
          let claim := assignHost claim host.id now
          let observedGeneration ←
            lift (toI64 claim.resource.status.observedGeneration "observed_generation")
          let updated ← execute fun db => db.updateClaims
            (fun row => row.id = claimId ∧ row.deletionTimestamp = none)
            fun row =>
              { row with
                observedGeneration := observedGeneration
                conditionsJson := claim.resource.status.conditions
                retryAttempt := 0
                nextReconcileAtUnixMs := none
                lastErrorKind := none
                lastErrorMessage := none }
          if updated ≠ 1 then
            fail (.conflict "HostClaim" claimId.text "the claim changed while assigning a Host")
          else
            readAssignment claimId providerPlanId resources
        else
          readAssignment claimId providerPlanId resources

/-- `Storage::save_claim_status`, one statement. -/
def saveClaimStatus (record : HostClaimRecord) : Method Bool := do
  let observedGeneration ←
    lift (toI64 record.resource.status.observedGeneration "observed_generation")
  let rowsAffected ← execute fun db => db.updateClaims
    (fun row => row.id = record.resource.id ∧
      row.deletionTimestamp = record.resource.deletionTimestamp)
    fun row =>
      { row with
        observedGeneration := observedGeneration
        conditionsJson := record.resource.status.conditions
        retryAttempt := fromU32 record.retry.attempt
        nextReconcileAtUnixMs := record.retry.nextReconcileAtUnixMs
        lastErrorKind := record.retry.lastErrorKind
        lastErrorMessage := record.retry.lastErrorMessage }
  return rowsAffected = 1

/-- `Storage::save_host`, one statement. -/
def saveHost (record : HostRecord) : Method Unit := do
  let rowsAffected ← execute fun db => db.updateHost record.resource.id fun row =>
    { row with
      phase := hostPhaseToDb record.resource.status.phase
      providerResourceId := record.resource.status.providerResourceId
      observedAt := record.resource.status.observedAt
      conditionsJson := record.resource.status.conditions
      retryAttempt := fromU32 record.retry.attempt
      nextReconcileAtUnixMs := record.retry.nextReconcileAtUnixMs
      lastErrorKind := record.retry.lastErrorKind
      lastErrorMessage := record.retry.lastErrorMessage }
  if rowsAffected = 0 then
    fail (.notFound "Host" record.resource.id.text)
  else
    return ()

/-- `Storage::finalize_claim`, one statement. -/
def finalizeClaim (claimId : HostClaimId) : Method Unit := do
  let rowsAffected ← execute fun db => db.deleteClaim claimId
  if rowsAffected = 0 then
    fail (.notFound "HostClaim" claimId.text)
  else
    return ()

variable {db : Database}

theorem run_eq_settle {α : Type} (operation : Database → Except AppError (α × Database)) :
    run operation db = settle db (operation db) := by
  unfold run
  cases operation db <;> rfl

/-- `create_claim` is one atomic operation. -/
theorem perform_createClaim (id : HostClaimId) (spec : HostClaimSpec) (now : Timestamp) :
    perform (createClaim id spec now) db = run (Storage.createClaim id spec now) db := by
  rw [run_eq_settle]
  apply perform_lift
  intro _ _
  apply perform_transaction
  apply commits_query
  cases fetchClaimRow db id with
  | some row =>
    apply commits_lift
    intro existing _
    split
    · exact commits_pure _
    · exact commits_fail _
  | none =>
    apply commits_lift
    intro row _
    have hinsert : (db.insertClaim row >>= fun db' =>
        (pure (initialClaim id spec now, db') : Except AppError _)) =
        ((db.insertClaim row).map fun db' => ((), db')) >>= fun answer =>
          pure (initialClaim id spec now, answer.2) := by
      cases db.insertClaim row <;> rfl
    rw [hinsert]
    exact commits_execute fun _ _ _ => commits_pure _

/-- `mark_claim_deleting` is one atomic operation. -/
theorem perform_markClaimDeleting (id : HostClaimId) (now : Timestamp) :
    perform (markClaimDeleting id now) db = run (Storage.markClaimDeleting id now) db := by
  rw [run_eq_settle]
  apply perform_transaction
  apply commits_query
  unfold Storage.markClaimDeleting
  cases fetchClaimRow db id with
  | none => exact commits_fail _
  | some row =>
    apply commits_lift
    intro record _
    split
    · apply commits_lift
      intro observedGeneration _
      apply commits_execute
      intro rowsAffected db' _
      dsimp only
      split
      · exact commits_fail _
      · exact commits_pure _
    · exact commits_pure _

/-- Reading the assignment back. -/
theorem commits_readAssignment (claimId : HostClaimId) (providerPlanId : String)
    (resources : HostResources) (committed db : Database) :
    Commits (readAssignment claimId providerPlanId resources) committed db
      (match fetchHostForClaimRow db claimId with
        | none => throw (.internal "Host insert completed without a Host row")
        | some row => do
          let host ← internal (hostRecordFromRow row)
          validateHostAssignment host providerPlanId resources
          return (host, db)) := by
  apply commits_query
  cases fetchHostForClaimRow db claimId with
  | none => exact commits_fail _
  | some row =>
    apply commits_lift
    intro host _
    apply commits_lift
    intro _ _
    exact commits_pure _

/-- `ensure_host` is one atomic operation. -/
theorem perform_ensureHost (claimId : HostClaimId) (providerPlanId : String)
    (resources : HostResources) (hostId : HostId) (now : Timestamp) :
    perform (ensureHost claimId providerPlanId resources hostId now) db =
      run (Storage.ensureHost claimId providerPlanId resources hostId now) db := by
  rw [run_eq_settle]
  apply perform_lift
  intro _ _
  apply perform_transaction
  apply commits_query
  cases fetchClaimRow db claimId with
  | none => exact commits_fail _
  | some row =>
    apply commits_lift
    intro claim _
    split
    · exact commits_fail _
    apply commits_query
    cases fetchHostForClaimRow db claimId with
    | some row =>
      apply commits_lift
      intro host _
      apply commits_lift
      intro _ _
      exact commits_pure _
    | none =>
      apply commits_lift
      intro row _
      apply commits_execute
      intro inserted db' _
      dsimp only
      split
      · apply commits_lift
        intro observedGeneration _
        apply commits_execute
        intro updated db'' _
        dsimp only
        split
        · exact commits_fail _
        · exact commits_readAssignment ..
      · exact commits_readAssignment ..

/-- `save_claim_status` is one atomic operation. -/
theorem perform_saveClaimStatus (record : HostClaimRecord) :
    perform (saveClaimStatus record) db = run (Storage.saveClaimStatus record) db := by
  rw [run_eq_settle]
  apply perform_lift
  intro observedGeneration _
  apply perform_execute
  intro rowsAffected db' _
  rfl

/-- An update that finds no row changes nothing. -/
theorem updateHost_none {hostId : HostId} {set : HostRow → HostRow} {db' : Database}
    (h : db.updateHost hostId set = .ok (0, db')) : db' = db := by
  obtain ⟨stored, hstore, heq⟩ := map_eq_ok.mp h
  obtain ⟨hcount, rfl⟩ := Prod.mk.inj heq
  obtain ⟨hclaims, hhosts⟩ := store_eq_ok.mp hstore
  have hnone := List.countP_eq_zero.mp hcount
  refine Database.ext hclaims ?_
  rw [hhosts]
  calc
    _ = db.hosts.map id := List.map_congr_left fun row hmem => by
      have hne : row.id ≠ hostId := fun heq => hnone row hmem (decide_eq_true heq)
      rw [if_neg hne, id]
    _ = db.hosts := List.map_id _

/-- `save_host` is one atomic operation: it returns an error after its statement only if the
    statement wrote nothing. -/
theorem perform_saveHost (record : HostRecord) :
    perform (saveHost record) db = run (Storage.saveHost record) db := by
  rw [run_eq_settle]
  apply perform_execute
  intro rowsAffected db' hupdate
  by_cases hnone : rowsAffected = 0
  · subst hnone
    rw [updateHost_none hupdate]
    rfl
  · simp only [hnone, if_false]
    rfl

/-- A deletion that finds no row changes nothing. -/
theorem deleteClaim_none {claimId : HostClaimId} {db' : Database}
    (h : db.deleteClaim claimId = .ok (0, db')) : db' = db := by
  obtain ⟨stored, hstore, heq⟩ := map_eq_ok.mp h
  obtain ⟨hcount, rfl⟩ := Prod.mk.inj heq
  obtain ⟨hclaims, hhosts⟩ := store_eq_ok.mp hstore
  have hnone : ∀ row ∈ db.hostClaims, row.id ≠ claimId := by
    intro row hmem heq
    exact List.countP_eq_zero.mp hcount row hmem (decide_eq_true heq)
  refine Database.ext ?_ ?_
  · rw [hclaims, List.filter_eq_self]
    intro row hmem
    exact decide_eq_true (hnone row hmem)
  · rw [hhosts, List.filter_eq_self]
    intro host hmem
    obtain ⟨row, hrow, hid⟩ := List.mem_map.mp (db.schema.hostReferences host hmem)
    exact decide_eq_true (hid ▸ hnone row hrow)

/-- `finalize_claim` is one atomic operation: it returns an error after its statement only if the
    statement removed nothing. -/
theorem perform_finalizeClaim (claimId : HostClaimId) :
    perform (finalizeClaim claimId) db = run (Storage.finalizeClaim claimId) db := by
  rw [run_eq_settle]
  apply perform_execute
  intro rowsAffected db' hdelete
  by_cases hnone : rowsAffected = 0
  · subst hnone
    rw [deleteClaim_none hdelete]
    rfl
  · simp only [hnone, if_false]
    rfl

end Storage.Statements

end ControlPlane
