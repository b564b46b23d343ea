import ControlPlane.Guarantees.Listing
import ControlPlane.Guarantees.RoundTrip
import ControlPlane.Storage.Store

/-!
# `Storage` refines its store

Every method, statement by statement on the tables, answers and does what the store says, its
errors included. So any sequence of calls from a freshly migrated database is one of the store.
-/

namespace ControlPlane

open Storage Database Interaction Session

/-- What a database holds. -/
def Database.store? (db : Database) : Store := ⟨db.claim?, db.host?⟩

namespace Storage

variable {db db' : Database} {id : HostClaimId} {spec : HostClaimSpec} {now : Timestamp}

theorem run_of_error {α : Type} {operation : Database → Except AppError (α × Database)}
    {error : AppError} (h : operation db = .error error) :
    run operation db = (.error error, db) := by
  unfold run
  rw [h]

theorem run_of_ok {α : Type} {operation : Database → Except AppError (α × Database)} {value : α}
    (h : operation db = .ok (value, db')) : run operation db = (.ok value, db') := by
  unfold run
  rw [h]

/-! ## `create_claim` -/

theorem createClaim_does (readable : db.Readable) (id : HostClaimId) (spec : HostClaimSpec)
    (now : Timestamp) :
    Store.Does db.store?
      ⟨.createClaim id spec now, (run (createClaim id spec now) db).1⟩
      (run (createClaim id spec now) db).2.store? := by
  cases hvalid : validateResources spec.resources with
  | error error =>
    rw [run_of_error (by unfold createClaim; rw [hvalid]; rfl)]
    exact .createRefused hvalid
  | ok =>
    cases hstored : db.claim? id with
    | some stored =>
      by_cases hspec : stored.resource.spec = spec
      · rw [run_of_ok (by rw [createClaim_stored hstored, hvalid]; exact if_pos hspec)]
        exact .createdBefore hvalid hstored hspec
      · rw [run_of_error (by rw [createClaim_stored hstored, hvalid]; exact if_neg hspec)]
        exact .createdOtherwise hvalid hstored hspec
    | none =>
      obtain ⟨db', hcreate⟩ := createClaim_inserts now (validateResources_iff.mp hvalid)
        ((claim?_eq_none readable).mp hstored)
      rw [run_of_ok hcreate]
      rcases createClaim_ok readable hcreate with ⟨_, hsome, -⟩ | ⟨-, -, -, hhosts, hclaims⟩
      · rw [hstored] at hsome
        cases hsome
      · have hview : db'.store? =
            db.store?.setClaim ⟨initialClaim id spec now, RetryState.default⟩ :=
          Store.ext hclaims hhosts
        rw [hview]
        exact .created hvalid hstored

/-! ## The queries -/

theorem getClaim_does (readable : db.Readable) (id : HostClaimId) :
    Store.Does db.store? ⟨.getClaim id, getClaim db id⟩ db.store? := by
  cases hclaim : db.claim? id with
  | some claim =>
    rw [getClaim_eq_ok.mpr hclaim]
    exact .gotClaim hclaim
  | none =>
    have hfetch := fetchClaimRow_eq_none.mpr ((claim?_eq_none readable).mp hclaim)
    unfold getClaim
    rw [hfetch]
    exact .noClaim hclaim

theorem getHost_does (readable : db.Readable) (id : HostId) :
    Store.Does db.store? ⟨.getHost id, getHost db id⟩ db.store? := by
  cases hhost : db.host? id with
  | some host =>
    rw [getHost_eq_ok.mpr hhost]
    exact .gotHost hhost
  | none =>
    have hfind : (db.hosts.find? fun row => decide (row.id = id)) = none := by
      rw [List.find?_eq_none]
      intro row hmem
      rw [decide_eq_true_eq]
      exact (host?_eq_none readable).mp hhost row hmem
    unfold getHost
    rw [hfind]
    exact .noHost hhost

/-- What decoding a list of rows yields. -/
theorem mem_decoded {ρ α : Type} {decode : ρ → Except String α} {rows : List ρ} {records : List α}
    (h : rows.mapM decode = .ok records) (record : α) :
    record ∈ records ↔ ∃ row ∈ rows, decode row = .ok record := by
  have hdecoded := mapM_eq_ok.mp h
  clear h
  induction hdecoded with
  | nil => simp
  | cons hrow _ ih =>
    constructor
    · intro hmem
      rcases List.mem_cons.mp hmem with rfl | hmem
      · exact ⟨_, List.mem_cons_self, hrow⟩
      · obtain ⟨row, hin, hdecode⟩ := ih.mp hmem
        exact ⟨row, List.mem_cons_of_mem _ hin, hdecode⟩
    · rintro ⟨row, hmem, hdecode⟩
      rcases List.mem_cons.mp hmem with rfl | hmem
      · rw [hrow] at hdecode
        cases hdecode
        exact List.mem_cons_self
      · exact List.mem_cons_of_mem _ (ih.mpr ⟨row, hmem, hdecode⟩)

theorem listClaims_does (readable : db.Readable) :
    Store.Does db.store? ⟨.listClaims, listClaims db⟩ db.store? := by
  obtain ⟨claims, hlist⟩ := listClaims_of_readable readable
  obtain ⟨honce, hstored⟩ := listClaims_ok hlist
  rw [hlist]
  refine .listedClaims ⟨honce, hstored, ?_⟩
  have hordered : ((orderedClaims db).map HostClaimRow.created).Pairwise ListedBefore :=
    pairwise_listedBefore HostClaimRow.created db.hostClaims
  rw [← created_of_listClaims hlist] at hordered
  exact List.pairwise_map.mp hordered

theorem listHosts_does (readable : db.Readable) :
    Store.Does db.store? ⟨.listHosts, listHosts db⟩ db.store? := by
  obtain ⟨hosts, hlist⟩ := listHosts_of_readable readable
  have hdecoded := internal_eq_ok.mp hlist
  have hperm : (orderedHosts db).Perm db.hosts := List.perm_insertionSort _ _
  rw [hlist]
  refine .listedHosts ⟨?_, fun host => ?_, ?_⟩
  · rw [map_eq_of_decoded (fun row record hdecode => (hostColumns hdecode).id) hdecoded]
    exact (hperm.map _).nodup_iff.mpr db.schema.hostIds
  · rw [mem_decoded hdecoded]
    show _ ↔ db.host? host.resource.id = some host
    rw [host?_eq_some]
    constructor
    · rintro ⟨row, hmem, hdecode⟩
      exact ⟨row, hperm.mem_iff.mp hmem, (hostColumns hdecode).id.symm, hdecode⟩
    · rintro ⟨row, hmem, -, hdecode⟩
      exact ⟨row, hperm.mem_iff.mpr hmem, hdecode⟩
  · have hordered : ((orderedHosts db).map HostRow.created).Pairwise ListedBefore :=
      pairwise_listedBefore HostRow.created db.hosts
    rw [← created_of_listHosts hlist] at hordered
    exact List.pairwise_map.mp hordered

/-! ## `mark_claim_deleting` -/

/-- `mark_claim_deleting` succeeds for a stored claim. -/
theorem markClaimDeleting_succeeds {stored : HostClaimRecord} (h : db.claim? id = some stored)
    (hlive : stored.resource.deletionTimestamp = none) (now : Timestamp) :
    ∃ claim db', markClaimDeleting id now db = .ok (claim, db') := by
  obtain ⟨row, hmem, hid, -⟩ := claim?_eq_some.mp h
  obtain ⟨joined, hfetch, hdecode⟩ := fetchClaimRow_of_claim h
  have hgeneration : toI64 (requestDeletion stored now).resource.status.observedGeneration
      "observed_generation" = _ := toI64_eq_ok.mpr ⟨claim?_generation h, rfl⟩
  obtain ⟨db', hupdate⟩ := updateClaims_succeeds db (fun row => row.id = id)
    (fun row =>
      { row with
        deletionTimestamp := (requestDeletion stored now).resource.deletionTimestamp
        observedGeneration := Int64.ofNat stored.resource.generation.toNat
        conditionsJson := (requestDeletion stored now).resource.status.conditions
        retryAttempt := 0
        nextReconcileAtUnixMs := none
        lastErrorKind := none
        lastErrorMessage := none }) (fun _ => rfl)
    (fun row _ hchecks => ⟨hchecks.1, hchecks.2.1, hchecks.2.2.1, hchecks.2.2.2.1,
      nonneg_toI64 hgeneration, Int64.le_refl _⟩)
  have haffected := updateClaims_affected id hupdate hmem (decide_eq_true hid)
    fun row hselected => of_decide_eq_true hselected
  refine ⟨(requestDeletion stored now).resource, db', ?_⟩
  unfold markClaimDeleting
  rw [hfetch]
  refine bind_eq_ok.mpr ⟨stored, hdecode, ?_⟩
  rw [if_pos (Option.isNone_iff_eq_none.mpr hlive)]
  refine bind_eq_ok.mpr ⟨_, hgeneration, bind_eq_ok.mpr ⟨_, hupdate, ?_⟩⟩
  dsimp only
  rw [if_neg (not_not.mpr haffected)]
  rfl

theorem markClaimDeleting_does (readable : db.Readable) (id : HostClaimId) (now : Timestamp) :
    Store.Does db.store? ⟨.markClaimDeleting id now, (run (markClaimDeleting id now) db).1⟩
      (run (markClaimDeleting id now) db).2.store? := by
  cases hclaim : db.claim? id with
  | none =>
    have hfetch := fetchClaimRow_eq_none.mpr ((claim?_eq_none readable).mp hclaim)
    rw [run_of_error (by unfold markClaimDeleting; rw [hfetch]; rfl)]
    exact .markedNone hclaim
  | some stored =>
    cases hdeletion : stored.resource.deletionTimestamp with
    | some time =>
      have hdeleting : stored.resource.deletionTimestamp.isSome := by rw [hdeletion]; rfl
      rw [run_of_ok (markClaimDeleting_deleting hclaim hdeleting now)]
      exact .markedBefore hclaim hdeleting
    | none =>
      obtain ⟨claim, db', hmark⟩ := markClaimDeleting_succeeds hclaim hdeletion now
      rw [run_of_ok hmark]
      obtain ⟨found, hfound, hcases⟩ := markClaimDeleting_ok readable hmark
      rw [hclaim] at hfound
      cases hfound
      rcases hcases with ⟨hdeleting, -⟩ | ⟨-, rfl, -, hhosts, hclaims⟩
      · rw [hdeletion] at hdeleting
        cases hdeleting
      · have hview : db'.store? = db.store?.setClaim (requestDeletion stored now) := by
          refine Store.ext ?_ hhosts
          have hid : stored.resource.id = id := claim?_id hclaim
          rw [Store.setClaim_claim, show (requestDeletion stored now).resource.id = _ from hid]
          exact hclaims
        rw [hview]
        exact .marked hclaim hdeletion

/-! ## `save_claim_status` -/

theorem saveClaimStatus_does (readable : db.Readable) (record : HostClaimRecord) :
    Store.Does db.store? ⟨.saveClaimStatus record, (run (saveClaimStatus record) db).1⟩
      (run (saveClaimStatus record) db).2.store? := by
  cases hgeneration :
    toI64 record.resource.status.observedGeneration "observed_generation" with
  | error error =>
    rw [run_of_error (by unfold saveClaimStatus; rw [hgeneration]; rfl)]
    exact .statusRefused hgeneration
  | ok generation =>
    have hfits := (toI64_eq_ok.mp hgeneration).1
    have hsucceeds : ∃ saved db', saveClaimStatus record db = .ok (saved, db') :=
      saveClaimStatus_succeeds hfits
    obtain ⟨saved, db', hsave⟩ := hsucceeds
    rw [run_of_ok hsave]
    rcases saveClaimStatus_ok readable hsave with
      ⟨rfl, -, hhosts, stored, hstored, hdeletion, hclaims⟩ | ⟨rfl, rfl, hother⟩
    · have hview : db'.store? = db.store?.setClaim (stored.withStatus record) := by
        refine Store.ext ?_ hhosts
        have hid : stored.resource.id = record.resource.id := claim?_id hstored
        rw [Store.setClaim_claim, show (stored.withStatus record).resource.id = _ from hid]
        exact hclaims
      rw [hview]
      exact .statusSaved hfits hstored hdeletion
    · exact .superseded hfits hother

/-! ## `ensure_host` -/

section ensureHost

variable {claimId : HostClaimId} {planId : String} {resources : HostResources} {hostId : HostId}
  {claim : HostClaimRecord}

theorem ensureHost_invalid {error : AppError} (h : validateResources resources = .error error) :
    ensureHost claimId planId resources hostId now db = .error error := by
  unfold ensureHost
  rw [h]
  rfl

theorem ensureHost_none (hvalid : validateResources resources = .ok ())
    (hfetch : fetchClaimRow db claimId = none) :
    ensureHost claimId planId resources hostId now db =
      .error (.notFound "HostClaim" claimId.text) := by
  unfold ensureHost
  rw [hvalid, hfetch]
  rfl

/-- A claim with a Host has the row of one. -/
theorem row_of_hostOf {host : HostRecord} (h : db.store?.HostOf claimId host) :
    ∃ row ∈ db.hosts, row.claimId = claimId ∧ hostRecordFromRow row = .ok host := by
  obtain ⟨row, hmem, -, hdecode⟩ := host?_eq_some.mp h.1
  exact ⟨row, hmem, (hostColumns hdecode).claimId.symm.trans h.2, hdecode⟩

/-- A claim without a Host has no row of one. -/
theorem unbound_of_not_hostOf (readable : db.Readable)
    (h : ∀ host, ¬db.store?.HostOf claimId host) : ∀ row ∈ db.hosts, row.claimId ≠ claimId := by
  intro row hmem howner
  obtain ⟨host, hhost, hdecode⟩ := readable.host_of_row hmem
  refine h host ⟨?_, (hostColumns hdecode).claimId.trans howner⟩
  show db.host? host.resource.id = some host
  rw [(hostColumns hdecode).id]
  exact hhost

/-- `ensure_host` cannot store a Host whose id is taken, or that has no plan. -/
theorem ensureHost_rejected (hvalid : validateResources resources = .ok ())
    (hclaim : db.claim? claimId = some claim) (hlive : claim.resource.deletionTimestamp = none)
    (hnone : ∀ row ∈ db.hosts, row.claimId ≠ claimId)
    (hbroken : (∃ row ∈ db.hosts, row.id = hostId) ∨ textLength planId = 0) :
    ensureHost claimId planId resources hostId now db = .error (.internal "constraint failed") := by
  obtain ⟨row, hrow, -, -⟩ := newHostRow_succeeds claimId hostId planId now hvalid
  obtain ⟨hrowId, hrowClaim, hrowDecode⟩ := newHostRow_ok hrow
  have hinsert : db.insertHost row = .error (.internal "constraint failed") := by
    have hany : ¬(db.hosts.any fun other => decide (other.claimId = row.claimId)) = true := by
      rw [hrowClaim]
      simpa using hnone
    have hschema : ¬Schema db.hostClaims (db.hosts ++ [row]) := by
      intro hschema
      rcases hbroken with ⟨other, hmem, hid⟩ | hplan
      · have hids := hschema.hostIds
        rw [List.map_append, List.nodup_append] at hids
        exact hids.2.2 other.id (List.mem_map_of_mem hmem) row.id (by simp)
          (hid.trans hrowId.symm)
      · have hchecks := (hschema.hostChecks row (List.mem_append_right _ List.mem_cons_self))
        have hname : row.providerPlanId = planId := (hostColumns hrowDecode).providerPlanId.symm
        have hlength := hchecks.2.2.2.1
        rw [hname, hplan] at hlength
        exact absurd hlength (Nat.lt_irrefl 0)
    unfold insertHost Database.store
    rw [if_neg hany, dif_neg hschema]
    rfl
  obtain ⟨joined, hfetch, hdecode⟩ := fetchClaimRow_of_claim hclaim
  have hlive' : ¬claim.resource.deletionTimestamp.isSome = true := by simp [hlive]
  unfold ensureHost
  rw [hvalid, hfetch, fetchHostForClaimRow_eq_none.mpr hnone]
  show (internal (claimRecordFromRow joined) >>= _) = _
  rw [hdecode]
  show (if _ then _ else _) = _
  rw [if_neg hlive']
  show (newHostRow _ _ >>= _) = _
  rw [hrow]
  show (db.insertHost row >>= _) = _
  rw [hinsert]
  rfl

theorem ensureHost_does (readable : db.Readable) (claimId : HostClaimId) (planId : String)
    (resources : HostResources) (hostId : HostId) (now : Timestamp) :
    Store.Does db.store?
      ⟨.ensureHost claimId planId resources hostId now,
        (run (ensureHost claimId planId resources hostId now) db).1⟩
      (run (ensureHost claimId planId resources hostId now) db).2.store? := by
  cases hvalid : validateResources resources with
  | error error =>
    rw [run_of_error (ensureHost_invalid hvalid)]
    exact .ensureRefused hvalid
  | ok =>
  cases hclaim : db.claim? claimId with
  | none =>
    have hfetch := fetchClaimRow_eq_none.mpr ((claim?_eq_none readable).mp hclaim)
    rw [run_of_error (ensureHost_none hvalid hfetch)]
    exact .ensuredNone hvalid hclaim
  | some claim =>
  cases hdeletion : claim.resource.deletionTimestamp with
  | some time =>
    have hdeleting : claim.resource.deletionTimestamp.isSome := by rw [hdeletion]; rfl
    rw [run_of_error (by rw [ensureHost_deleting hclaim hdeleting, hvalid]; rfl)]
    exact .ensuredDeleting hvalid hclaim hdeleting
  | none =>
  by_cases hbound : ∃ host, db.store?.HostOf claimId host
  · obtain ⟨host, hhost⟩ := hbound
    obtain ⟨row, hmem, howner, hdecode⟩ := row_of_hostOf hhost
    have hassigned : ensureHost claimId planId resources hostId now db =
        validateHostAssignment host planId resources >>= fun _ => .ok (host, db) := by
      rw [ensureHost_assigned hclaim hdeletion hmem howner hdecode, hvalid]
      rfl
    have hdoes : Store.Does db.store?
        ⟨.ensureHost claimId planId resources hostId now,
          (validateHostAssignment host planId resources).map fun _ => host⟩ db.store? :=
      .ensuredBefore hvalid hclaim hdeletion hhost rfl
    cases hsame : validateHostAssignment host planId resources with
    | error error =>
      rw [hsame] at hassigned hdoes
      rw [run_of_error hassigned]
      exact hdoes
    | ok =>
      rw [hsame] at hassigned hdoes
      rw [run_of_ok hassigned]
      exact hdoes
  · have hnot := not_exists.mp hbound
    have hnone := unbound_of_not_hostOf readable hnot
    by_cases hbroken : (db.host? hostId).isSome ∨ textLength planId = 0
    · rw [run_of_error (ensureHost_rejected hvalid hclaim hdeletion hnone ?_)]
      · exact .ensureRejected hvalid hclaim hdeletion hnot hbroken
      · refine hbroken.imp_left fun hsome => ?_
        obtain ⟨host, hhost⟩ := Option.isSome_iff_exists.mp hsome
        obtain ⟨row, hmem, hid, -⟩ := host?_eq_some.mp hhost
        exact ⟨row, hmem, hid⟩
    · obtain ⟨hfree, hplan⟩ := not_or.mp hbroken
      have hfree : db.host? hostId = none := by simpa using hfree
      have hunbound : claim.resource.status.hostId = none := by
        rw [Option.eq_none_iff_forall_ne_some]
        intro bound hsome
        obtain ⟨row, hmem, howner, -⟩ := (claim?_hostId_row hclaim).mp hsome
        exact hnone row hmem howner
      obtain ⟨host, db', hensure⟩ := ensureHost_succeeds now hvalid (Nat.pos_of_ne_zero hplan)
        hclaim hdeletion hunbound ((host?_eq_none readable).mp hfree)
      rw [run_of_ok hensure]
      obtain ⟨found, hfound, -, hcases⟩ := ensureHost_ok readable hensure
      rw [hclaim] at hfound
      cases hfound
      rcases hcases with ⟨-, hhost, howner⟩ | ⟨-, -, rfl, hhosts, hclaims⟩
      · exact absurd ⟨hhost, howner⟩ (hnot host)
      · have hview : db'.store? =
            (db.store?.setHost (newHost claimId planId resources hostId now)).setClaim
              (assignHost claim hostId now) := by
          refine Store.ext ?_ hhosts
          have hid : claim.resource.id = claimId := claim?_id hclaim
          rw [Store.setClaim_claim,
            show (assignHost claim hostId now).resource.id = _ from hid]
          exact hclaims
        rw [hview]
        exact .ensured hvalid hclaim hdeletion hnot hfree (Nat.pos_of_ne_zero hplan)

end ensureHost

/-! ## `save_host` -/

section saveHost

variable {record stored : HostRecord}

/-- No other row has the provider resource of a record, if no other Host has. -/
theorem free_rows (readable : db.Readable) (h : db.store?.Free record) :
    ∀ other ∈ db.hosts, other.id ≠ record.resource.id → ∀ resourceId,
      record.resource.status.providerResourceId = some resourceId →
        other.providerResourceId ≠ some resourceId := by
  intro other hmem hne resourceId hresource
  obtain ⟨host, hhost, hdecode⟩ := readable.host_of_row hmem
  rw [← (hostColumns hdecode).providerResourceId]
  exact h other.id host resourceId hne hhost hresource

/-- `save_host` for a Host that is not stored. -/
theorem saveHost_none (h : ∀ row ∈ db.hosts, row.id ≠ record.resource.id) :
    saveHost record db = .error (.notFound "Host" record.resource.id.text) := by
  have hrows : ∀ set : HostRow → HostRow,
      (db.hosts.map fun row => if row.id = record.resource.id then set row else row) =
        db.hosts := by
    intro set
    calc
      _ = db.hosts.map id := List.map_congr_left fun row hmem => if_neg (h row hmem)
      _ = db.hosts := List.map_id _
  have haffected : (db.hosts.countP fun row => row.id = record.resource.id) = 0 := by
    rw [List.countP_eq_zero]
    intro row hmem
    simpa using h row hmem
  unfold saveHost updateHost Database.store
  rw [hrows, haffected, dif_pos db.schema]
  rfl

/-- `save_host` for a stored Host writes it or breaks a constraint. -/
theorem saveHost_error {row : HostRow} {error : AppError} (hmem : row ∈ db.hosts)
    (hid : row.id = record.resource.id) (h : saveHost record db = .error error) :
    error = .internal "constraint failed" := by
  have haffected : (db.hosts.countP fun row => row.id = record.resource.id) ≠ 0 := by
    rw [ne_eq, List.countP_eq_zero]
    intro hnone
    exact hnone row hmem (decide_eq_true hid)
  unfold saveHost updateHost Database.store at h
  split at h
  · change (if _ then _ else _) = _ at h
    rw [if_neg haffected] at h
    cases h
  · cases h
    rfl

theorem saveHost_does (readable : db.Readable) (record : HostRecord) :
    Store.Does db.store? ⟨.saveHost record, (run (saveHost record) db).1⟩
      (run (saveHost record) db).2.store? := by
  cases hhost : db.host? record.resource.id with
  | none =>
    rw [run_of_error (saveHost_none ((host?_eq_none readable).mp hhost))]
    exact .savedNone hhost
  | some stored =>
    obtain ⟨row, hmem, hid, hdecode⟩ := host?_eq_some.mp hhost
    by_cases hfree : db.store?.Free record
    · obtain ⟨db', hsave⟩ := saveHost_succeeds hmem hid (free_rows readable hfree)
      rw [run_of_ok hsave]
      obtain ⟨found, hfound, -, hclaims, hhosts⟩ := saveHost_ok readable hsave
      rw [hhost] at hfound
      cases hfound
      have hview : db'.store? = db.store?.setHost (stored.withStatus record) := by
        refine Store.ext hclaims ?_
        have hid : stored.resource.id = record.resource.id := host?_id hhost
        rw [Store.setHost_host, show (stored.withStatus record).resource.id = _ from hid]
        exact hhosts
      rw [hview]
      exact .saved hhost hfree
    · cases hsave : saveHost record db with
      | error error =>
        obtain rfl := saveHost_error hmem hid hsave
        rw [run_of_error hsave]
        exact .saveRejected hhost hfree
      | ok answer =>
        -- Two rows of the new table would record one resource.
        obtain ⟨⟨⟩, db'⟩ := answer
        obtain ⟨found, hfound, -, -, hhosts⟩ := saveHost_ok readable hsave
        refine absurd (fun hostId other resourceId hne hother hresource hsame => hne ?_) hfree
        have hnew : db'.host? record.resource.id = some (found.withStatus record) := by
          rw [hhosts, Function.update_self]
        have hold : db'.host? hostId = some other := by
          rw [hhosts, Function.update_of_ne hne]
          exact hother
        obtain ⟨first, hfirst, hfirstId, hfirstDecode⟩ := host?_eq_some.mp hold
        obtain ⟨second, hsecond, hsecondId, hsecondDecode⟩ := host?_eq_some.mp hnew
        have hrows := host_of_providerResourceId hfirst hsecond
          ((hostColumns hfirstDecode).providerResourceId.symm.trans hsame)
          ((hostColumns hsecondDecode).providerResourceId.symm.trans hresource)
        rw [← hfirstId, ← hsecondId, hrows]

end saveHost

/-! ## `finalize_claim` -/

/-- `finalize_claim` for a claim that is not stored. -/
theorem finalizeClaim_none {claimId : HostClaimId} (h : ∀ row ∈ db.hostClaims, row.id ≠ claimId) :
    finalizeClaim claimId db = .error (.notFound "HostClaim" claimId.text) := by
  have hclaims : (db.hostClaims.filter fun row => row.id ≠ claimId) = db.hostClaims :=
    List.filter_eq_self.mpr fun row hmem => decide_eq_true (h row hmem)
  have hhosts : (db.hosts.filter fun row => row.claimId ≠ claimId) = db.hosts := by
    refine List.filter_eq_self.mpr fun row hmem => decide_eq_true fun howner => ?_
    obtain ⟨claim, hclaim, hid⟩ := List.mem_map.mp (db.schema.hostReferences row hmem)
    exact h claim hclaim (hid.trans howner)
  have haffected : (db.hostClaims.countP fun row => row.id = claimId) = 0 := by
    rw [List.countP_eq_zero]
    intro row hmem
    simpa using h row hmem
  unfold finalizeClaim deleteClaim Database.store
  rw [hclaims, hhosts, haffected, dif_pos db.schema]
  rfl

theorem finalizeClaim_does (readable : db.Readable) (claimId : HostClaimId) :
    Store.Does db.store? ⟨.finalizeClaim claimId, (run (finalizeClaim claimId) db).1⟩
      (run (finalizeClaim claimId) db).2.store? := by
  cases hclaim : db.claim? claimId with
  | none =>
    rw [run_of_error (finalizeClaim_none ((claim?_eq_none readable).mp hclaim))]
    exact .finalizedNone hclaim
  | some claim =>
    obtain ⟨row, hmem, hid, -⟩ := claim?_eq_some.mp hclaim
    obtain ⟨db', hfinalize⟩ := finalizeClaim_succeeds hmem hid
    rw [run_of_ok hfinalize]
    obtain ⟨-, -, hclaims, hhosts⟩ := finalizeClaim_ok readable hfinalize
    have hview : db'.store? = db.store?.remove claimId := Store.ext hclaims (funext hhosts)
    rw [hview]
    exact .finalized hclaim

/-! ## All calls -/

/-- Every call does what the store says. -/
theorem Call.does (readable : db.Readable) (call : Call) :
    Store.Does db.store? ⟨call, (call.perform db).1⟩ (call.perform db).2.store? := by
  cases call with
  | createClaim id spec now =>
    have hperform : Session.perform (Statements.createClaim id spec now) db = _ :=
      Statements.perform_createClaim id spec now
    have hdoes := createClaim_does readable id spec now
    rw [← hperform] at hdoes
    exact hdoes
  | getClaim id => exact getClaim_does readable id
  | listClaims => exact listClaims_does readable
  | markClaimDeleting id now =>
    have hperform : Session.perform (Statements.markClaimDeleting id now) db = _ :=
      Statements.perform_markClaimDeleting id now
    have hdoes := markClaimDeleting_does readable id now
    rw [← hperform] at hdoes
    exact hdoes
  | saveClaimStatus record =>
    have hperform : Session.perform (Statements.saveClaimStatus record) db = _ :=
      Statements.perform_saveClaimStatus record
    have hdoes := saveClaimStatus_does readable record
    rw [← hperform] at hdoes
    exact hdoes
  | ensureHost claimId planId resources hostId now =>
    have hperform :
        Session.perform (Statements.ensureHost claimId planId resources hostId now) db = _ :=
      Statements.perform_ensureHost claimId planId resources hostId now
    have hdoes := ensureHost_does readable claimId planId resources hostId now
    rw [← hperform] at hdoes
    exact hdoes
  | getHost id => exact getHost_does readable id
  | listHosts => exact listHosts_does readable
  | saveHost record =>
    have hperform : Session.perform (Statements.saveHost record) db = _ :=
      Statements.perform_saveHost record
    have hdoes := saveHost_does readable record
    rw [← hperform] at hdoes
    exact hdoes
  | finalizeClaim claimId =>
    have hperform : Session.perform (Statements.finalizeClaim claimId) db = _ :=
      Statements.perform_finalizeClaim claimId
    have hdoes := finalizeClaim_does readable claimId
    rw [← hperform] at hdoes
    exact hdoes

/-- Every call keeps the tables readable. -/
theorem Call.readable (readable : db.Readable) (call : Call) : (call.perform db).2.Readable := by
  cases call with
  | createClaim id spec now => exact Mutation.readable (.createClaim id spec now) readable
  | getClaim id => exact readable
  | listClaims => exact readable
  | markClaimDeleting id now => exact Mutation.readable (.markClaimDeleting id now) readable
  | saveClaimStatus record => exact Mutation.readable (.saveClaimStatus record) readable
  | ensureHost claimId planId resources hostId now =>
    exact Mutation.readable (.ensureHost claimId planId resources hostId now) readable
  | getHost id => exact readable
  | listHosts => exact readable
  | saveHost record => exact Mutation.readable (.saveHost record) readable
  | finalizeClaim claimId => exact Mutation.readable (.finalizeClaim claimId) readable

end Storage

/-- Any sequence of calls of `Storage`, with any arguments and whatever they are answered, is one
    of the store. -/
theorem storage_refines_store {answered : List Answered} {db : Database}
    (h : Storage.machine.Trace .empty answered db) :
    Store.machine.Trace .empty answered db.store? := by
  refine (h.view Database.store? Readable readable_empty ?_).2
  rintro db ⟨call, answer⟩ db' hcall readable
  have hreadable := call.readable readable
  have hdoes := call.does readable
  rw [show call.perform db = (answer, db') from hcall] at hreadable hdoes
  exact ⟨hreadable, hdoes⟩

/-- A claim is created, another one asked for, and the first one finalized twice. -/
theorem store_of_oneClaim :
    Store.machine.Trace .empty
      [⟨.createClaim ⟨"claim"⟩ ⟨⟨1, 1, 1⟩⟩ ⟨0⟩,
        .ok (initialClaim ⟨"claim"⟩ ⟨⟨1, 1, 1⟩⟩ ⟨0⟩)⟩,
        ⟨.getClaim ⟨"other"⟩, .error (.notFound "HostClaim" "other")⟩,
        ⟨.finalizeClaim ⟨"claim"⟩, .ok ()⟩,
        ⟨.finalizeClaim ⟨"claim"⟩, .error (.notFound "HostClaim" "claim")⟩]
      ((Call.finalizeClaim ⟨"claim"⟩).perform oneClaim).2.store? :=
  storage_refines_store
    (.snoc (.snoc (.snoc (.snoc .nil (show _ = (_, oneClaim) by decide +kernel))
      (show _ = (_, oneClaim) by decide +kernel))
      (show _ = (_, ((Call.finalizeClaim ⟨"claim"⟩).perform oneClaim).2) by decide +kernel))
      (show _ = (_, ((Call.finalizeClaim ⟨"claim"⟩).perform oneClaim).2) by decide +kernel))

end ControlPlane
