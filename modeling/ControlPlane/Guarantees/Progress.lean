import ControlPlane.Guarantees.Stages

/-!
# What a turn makes of a stage

While nothing interferes and no fault is injected, a turn never fails. It is idle exactly when its
claim is at rest, and then nobody's stage changes; else its claim goes to its next stage, and
nobody else's does.
-/

namespace ControlPlane

open Interaction Controller FakeProvider

variable {nowMs : Int64} {claim : HostClaimRecord} {host : HostRecord} {hostId : HostId}
  {id : HostClaimId} {log log' : Happened} {db db' : Database} {state state' : FakeState}
  {fake fake' : FakeDatabase}

/-! ## What a pass relies on -/

/-- What a pass relies on while nothing interferes and no fault is injected. -/
structure Steady (db : Database) (state : FakeState) : Prop where
  readable : db.Readable
  owned : ∀ row ∈ state.database.providerResources, OwnedIn db row
  ready : state.database.AllReady
  named : state.Named
  recorded : RecordedIn db state
  faultless : state.database.Faultless
  catalog : state.database.plans = seedPlans
  planned : ∀ {hostId host}, db.host? hostId = some host →
    ∃ row ∈ seedPlans, row.enabled = 1 ∧ row.id = host.providerPlanId

/-- So it is in every state reached with an unchanging catalog. -/
theorem steady_of_reachable {c : Daemon FakeState}
    (h : Reachable fakeProvider UnchangingCatalog FakeState.seeded c)
    (hfaultless : c.world.provider.database.Faultless) :
    Steady c.world.database c.world.provider := by
  have hinv : c.world.database.Invariant := h.sound.inv
  have hprovenance := provenance_of_reachable h
  exact ⟨hinv.readable, (ownership_of_reachable rfl h).owned, hprovenance.ready,
    hprovenance.named, hprovenance.recorded, hfaultless, catalog_of_reachable h,
    fun hhost => planned_of_reachable h hhost⟩

theorem Steady.untouched (h : Steady db state) (huntouched : state.Untouched state') :
    Steady db state' := by
  obtain ⟨hrows, hplans, hfaultless, hdrawn⟩ := huntouched
  refine ⟨h.readable, ?_, ?_, ?_, ?_, hfaultless, hplans.trans h.catalog, h.planned⟩
  · rw [hrows]
    exact h.owned
  · unfold FakeDatabase.AllReady
    rw [hrows]
    exact h.ready
  · intro row hmem
    rw [hrows] at hmem
    obtain ⟨uuid, huuid, hname⟩ := h.named row hmem
    exact ⟨uuid, hdrawn huuid, hname⟩
  · intro hostId host id hhost hid
    obtain ⟨⟨uuid, huuid, hname⟩, howner⟩ := h.recorded hostId host id hhost hid
    rw [hrows]
    exact ⟨⟨uuid, hdrawn huuid, hname⟩, howner⟩

/-- What the provider was asked for a Host, and what it gave. -/
def HostRecord.provided (host : HostRecord) : String × Option String :=
  (host.providerPlanId, host.resource.status.providerResourceId)

theorem Steady.database (h : Steady db state) (readable : db'.Readable)
    (hhosts : ∀ hostId, (db'.host? hostId).map HostRecord.provided =
      (db.host? hostId).map HostRecord.provided) : Steady db' state := by
  have hback : ∀ {hostId host'}, db'.host? hostId = some host' →
      ∃ host, db.host? hostId = some host ∧ host.provided = host'.provided := by
    intro hostId host' hhost'
    have hsame := hhosts hostId
    rw [hhost', Option.map_some] at hsame
    exact Option.map_eq_some_iff.mp hsame.symm
  refine ⟨readable, fun row hmem => ?_, h.ready, h.named, ?_, h.faultless, h.catalog, ?_⟩
  · obtain ⟨host, hhost, hplan, hrecorded⟩ := h.owned row hmem
    have hsame := hhosts row.hostId
    rw [hhost, Option.map_some] at hsame
    obtain ⟨host', hhost', hprovided⟩ := Option.map_eq_some_iff.mp hsame
    obtain ⟨hplan', hrecorded'⟩ := Prod.mk.inj hprovided
    refine ⟨host', hhost', hplan'.trans hplan, fun id hid => hrecorded id ?_⟩
    rw [← hrecorded', hid]
  · intro hostId host' id hhost' hid
    obtain ⟨host, hhost, hprovided⟩ := hback hhost'
    exact h.recorded hostId host id hhost ((Prod.mk.inj hprovided).2.trans hid)
  · intro hostId host' hhost'
    obtain ⟨host, hhost, hprovided⟩ := hback hhost'
    obtain ⟨row, hmem, henabled, hplan⟩ := h.planned hhost
    exact ⟨row, hmem, henabled, hplan.trans (Prod.mk.inj hprovided).1⟩

/-- The observed resource of a Host is the one it records, if it records any. -/
theorem Steady.recordedHere (h : Steady db state) {row : ProviderResourceRow}
    (hhost : db.host? host.resource.id = some host)
    (hrow : state.database.resourceRow host.resource.id = some row) :
    recordedElsewhere host ⟨row.id, row.hostId, .ready⟩ = none := by
  cases hrecorded : recordedElsewhere host ⟨row.id, row.hostId, .ready⟩ with
  | none => rfl
  | some expected =>
    obtain ⟨hid, hne⟩ := recordedElsewhere_eq_some hrecorded
    obtain ⟨hmem, hhostId⟩ := FakeDatabase.resourceRow_eq_some.mp hrow
    obtain ⟨owner, howner, -, hsame⟩ := h.owned row hmem
    rw [hhostId, hhost] at howner
    cases howner
    exact absurd (hsame expected hid) hne

/-- A Host can be saved with its own resource, or with one that is new. -/
theorem Steady.saveHost_succeeds (h : Steady db state) {record : HostRecord}
    (hstored : db.host? record.resource.id = some host)
    (hresource : ∀ id, record.resource.status.providerResourceId = some id →
      (∃ row ∈ state.database.providerResources, row.id = id ∧ row.hostId = record.resource.id) ∨
        ∃ uuid, uuid ∉ state.drawn ∧ id = "fake-" ++ uuid) :
    ∃ db', Storage.saveHost record db = .ok ((), db') := by
  obtain ⟨row, hmem, hid, -⟩ := Database.host?_eq_some.mp hstored
  refine Storage.saveHost_succeeds hmem hid fun other hother hne resourceId hrecords heq => ?_
  obtain ⟨owner, howner, hdecode⟩ := h.readable.host_of_row hother
  have hownerId := (hostColumns hdecode).providerResourceId.trans heq
  obtain ⟨⟨uuid, huuid, hname⟩, hrows⟩ := h.recorded other.id owner resourceId howner hownerId
  rcases hresource resourceId hrecords with ⟨row', hmem', hid', hhost'⟩ | ⟨uuid', hfresh, hname'⟩
  · exact hne ((hrows row' hmem' hid').symm.trans hhost')
  · have hsame := fake_inj (hname'.symm.trans hname)
    exact hfresh (hsame ▸ huuid)

/-! ## Calls to the provider -/

/-- The seeded catalog: its processors fit a `u32`, every plan is listed once, and a Host can be
    stored for each. -/
theorem seedPlans_usable : ∀ row ∈ seedPlans, row.vcpus.toInt < 2 ^ 32 ∧
    seedPlans.countP (fun other => other.id = row.id ∧ other.enabled = 1) = 1 ∧
    (planFromRow row).toOption.map (fun plan =>
      ((Storage.validateResources plan.resources).isOk, decide (0 < textLength plan.id))) =
        some (true, true) := by
  decide +kernel

/-- Requirements that were stored are in range. -/
theorem inRange_of_stored (hclaim : db.claim? id = some claim) :
    InRange claim.resource.spec.resources := by
  obtain ⟨row, -, -, hdecode⟩ := Database.claim?_eq_some.mp hclaim
  have hmemory := toU64_eq_ok (claimColumns hdecode).memoryBytes
  have hstorage := toU64_eq_ok (claimColumns hdecode).storageBytes
  have hmemoryLt := Int64.toInt_lt row.memoryBytes
  have hstorageLt := Int64.toInt_lt row.storageBytes
  simp only [Storage.joinHost] at hmemory hstorage
  unfold InRange
  rw [maxValue_eq]
  omega

/-- A plan is found for a stored claim exactly if it can be placed, and a Host can be stored
    for it. -/
theorem Steady.selectPlan (h : Steady db state) (hclaim : db.claim? id = some claim)
    {answer : ProviderAnswer (.selectPlan claim.resource.spec.resources)}
    (hanswers : fakeProvider.answers state (.selectPlan claim.resource.spec.resources) answer
      state') :
    state.Untouched state' ∧
      (answer = .ok none ∧ ¬Placeable state.database claim ∨
        ∃ plan, answer = .ok (some plan) ∧ Placeable state.database claim ∧
          Storage.validateResources plan.resources = .ok () ∧ 0 < textLength plan.id) := by
  have hfits : ProcessorsFit state.database := by
    unfold ProcessorsFit
    rw [h.catalog]
    exact fun row hmem => (seedPlans_usable row hmem).1
  obtain ⟨huntouched, hcases⟩ :=
    calm_selectPlan hanswers h.faultless hfits (inRange_of_stored hclaim)
  refine ⟨huntouched, ?_⟩
  rcases hcases with ⟨hnone, hoffers⟩ | ⟨row, hmem, plan, hoffers, hplan, hsome⟩
  · refine .inl ⟨hnone, ?_⟩
    rintro ⟨row, hmem, hfit⟩
    exact hoffers row hmem hfit
  · refine .inr ⟨plan, hsome, ⟨row, hmem, hoffers⟩, ?_⟩
    have husable := (seedPlans_usable row (h.catalog ▸ hmem)).2.2
    rw [hplan] at husable
    obtain ⟨hvalid, hlength⟩ := Prod.mk.inj (Option.some_inj.mp husable)
    refine ⟨?_, of_decide_eq_true hlength⟩
    revert hvalid
    cases Storage.validateResources plan.resources with
    | ok => exact fun _ => rfl
    | error error => exact fun hvalid => by cases hvalid

/-- The plan of a stored Host is offered. -/
theorem Steady.countEnabled (h : Steady db state) (hhost : db.host? hostId = some host) :
    state.database.countEnabled host.providerPlanId = 1 := by
  obtain ⟨row, hmem, -, hid⟩ := h.planned hhost
  unfold FakeDatabase.countEnabled
  rw [h.catalog, ← hid]
  exact (seedPlans_usable row hmem).2.1

theorem FakeState.Untouched.resourceRow (h : state.Untouched state') (hostId : HostId) :
    state'.database.resourceRow hostId = state.database.resourceRow hostId := by
  unfold FakeDatabase.resourceRow
  rw [h.providerResources]

/-- A call that only reads changes no stage. -/
theorem FakeState.Untouched.stage (h : state.Untouched state') :
    stage nowMs state'.database db = stage nowMs state.database db :=
  funext fun _ => stage_congr rfl h.plans fun _ hostId _ _ => ⟨rfl, h.resourceRow hostId⟩

/-! ## What a turn leaves alone -/

/-- Nothing changed for the other claims. -/
structure Elsewhere (id : HostClaimId) (db db' : Database) (fake fake' : FakeDatabase) : Prop where
  claims : ∀ other, other ≠ id → db'.claim? other = db.claim? other
  hosts : ∀ hostId host, db.host? hostId = some host → host.resource.claimId ≠ id →
    db'.host? hostId = some host ∧ fake'.resourceRow hostId = fake.resourceRow hostId
  plans : fake'.plans = fake.plans

theorem Elsewhere.stage (h : Elsewhere id db db' fake fake') (readable : db.Readable)
    {place : Stage} (hplace : stage nowMs fake' db' id = place) :
    stage nowMs fake' db' = Function.update (stage nowMs fake db) id place := by
  funext other
  by_cases hother : other = id
  · subst hother
    rw [Function.update_self, hplace]
  · rw [Function.update_of_ne hother]
    refine stage_congr (h.claims other hother) h.plans fun claim hostId hclaim hbound => ?_
    obtain ⟨host, hhost, howner⟩ := (Database.claim?_hostId readable hclaim).mp hbound
    rw [hhost]
    exact h.hosts hostId host hhost fun heq => hother (howner.symm.trans heq)

/-- A turn that writes to its claim, to the row of its Host and to the resource of its Host. -/
theorem Elsewhere.of_updates {claim' : Option HostClaimRecord} {host' : Option HostRecord}
    (hclaims : db'.claim? = Function.update db.claim? id claim')
    (hhosts : db'.host? = Function.update db.host? hostId host')
    (hrows : ∀ other, other ≠ hostId → fake'.resourceRow other = fake.resourceRow other)
    (howner : ∀ host, db.host? hostId = some host → host.resource.claimId = id)
    (hplans : fake'.plans = fake.plans) : Elsewhere id db db' fake fake' := by
  refine ⟨fun other hne => ?_, fun other host hhost hne => ?_, hplans⟩
  · rw [hclaims, Function.update_of_ne hne]
  · have hother : other ≠ hostId := fun heq => hne (howner host (heq ▸ hhost))
    rw [hhosts, Function.update_of_ne hother]
    exact ⟨hhost, hrows other hother⟩

/-- What a turn of a claim does that goes on to the next stage. -/
structure Advanced (nowMs : Int64) (id : HostClaimId) (db db' : Database)
    (state state' : FakeState) : Prop where
  elsewhere : Elsewhere id db db' state.database state'.database
  steps : Stage.path.steps (stage nowMs state.database db id) ≠ 0
  next : stage nowMs state'.database db' id =
    Stage.path.next (stage nowMs state.database db id)
  faultless : state'.database.Faultless
  bound : ∀ claim claim' hostId, db.claim? id = some claim →
    claim.resource.status.hostId = some hostId → db'.claim? id = some claim' →
    claim'.resource.status.hostId = some hostId

/-! ## Undisturbed saves -/

theorem Persisted.succeeds {record : HostClaimRecord} {answer : Except AppError Unit}
    (h : Persisted record db log answer db' log')
    (hstored : db.claim? record.resource.id = some claim)
    (hdeletion : claim.resource.deletionTimestamp = record.resource.deletionTimestamp)
    (hfits : record.resource.status.observedGeneration.toNat < 2 ^ 63) :
    answer = .ok () ∧ db'.host? = db.host? ∧
      db'.claim? =
        Function.update db.claim? record.resource.id (some (claim.withStatus record)) := by
  have hsucceeds : ∃ saved db'', Storage.saveClaimStatus record db = .ok (saved, db'') :=
    Storage.saveClaimStatus_succeeds hfits
  obtain ⟨saved, db'', hsave⟩ := hsucceeds
  cases h with
  | refused hrefused =>
    rw [hsave] at hrefused
    cases hrefused
  | saved hsaved =>
    obtain ⟨-, hhosts, hclaims⟩ := Storage.saveClaimStatus_records hsaved hstored hdeletion
    exact ⟨rfl, hhosts, hclaims⟩
  | stale hsaved =>
    obtain ⟨hsaved, -⟩ := Storage.saveClaimStatus_records hsaved hstored hdeletion
    cases hsaved

theorem Published.succeeds {updated : HostClaimRecord × HostRecord}
    {answer : Except AppError Unit} (h : Published updated db log answer db' log')
    (hsaves : ∃ middle, Storage.saveHost updated.2 db = .ok ((), middle))
    (hhost : db.host? updated.2.resource.id = some host)
    (hclaim : db.claim? updated.1.resource.id = some claim)
    (hdeletion : claim.resource.deletionTimestamp = updated.1.resource.deletionTimestamp)
    (hfits : updated.1.resource.status.observedGeneration.toNat < 2 ^ 63) :
    answer = .ok () ∧
      db'.host? = Function.update db.host? updated.2.resource.id
        (some (host.withStatus updated.2)) ∧
      db'.claim? = Function.update db.claim? updated.1.resource.id
        (some (claim.withStatus updated.1)) := by
  obtain ⟨middle, hsaves⟩ := hsaves
  cases h with
  | refused hrefused =>
    rw [hsaves] at hrefused
    cases hrefused
  | saved hsaved hpersisted =>
    obtain ⟨hkept, hsavedHosts⟩ := Storage.saveHost_records hsaved hhost
    rw [← hkept] at hclaim
    obtain ⟨hanswer, hhosts, hclaims⟩ := hpersisted.succeeds hclaim hdeletion hfits
    rw [hkept] at hclaims
    exact ⟨hanswer, hhosts.trans hsavedHosts, hclaims⟩

/-- A live claim serves where its Host is ready with the resource there is, and nothing else is
    outstanding. -/
theorem boundStage_of_ready {row : ProviderResourceRow}
    (hlive : claim.resource.deletionTimestamp = none)
    (hrow : fake.resourceRow host.resource.id = some row)
    (hphase : host.resource.status.phase = .ready)
    (hid : host.resource.status.providerResourceId = some row.id)
    (hretry : host.retry = RetryState.default) : boundStage nowMs fake claim host = .serving := by
  have hdue : host.retry.isDue nowMs = true := by
    rw [hretry]
    rfl
  have hstable : providerObservationIsStable host ⟨row.id, row.hostId, .ready⟩ = true := by
    unfold providerObservationIsStable
    rw [hphase, hid, hretry]
    simp [ProviderLifecycle.expectedPhase, RetryState.default]
  rw [boundStage_of_present hlive hdue (by rw [hphase]; exact fun h => by cases h) hrow,
    if_pos hstable]

/-- Publishing what was observed of a ready resource. -/
theorem Published.serves (nowMs : Int64) {row : ProviderResourceRow} {now : Timestamp}
    {answer : Except AppError Unit}
    (h : Published (applyProviderObservation claim host ⟨row.id, row.hostId, .ready⟩ now) db log
      answer db' log')
    (hsaves : ∃ middle, Storage.saveHost
      (applyProviderObservation claim host ⟨row.id, row.hostId, .ready⟩ now).2 db =
        .ok ((), middle))
    (hclaim : db.claim? claim.resource.id = some claim)
    (hlive : claim.resource.deletionTimestamp = none)
    (hbound : claim.resource.status.hostId = some host.resource.id)
    (hhost : db.host? host.resource.id = some host)
    (hrow : fake.resourceRow host.resource.id = some row) :
    answer = .ok () ∧ stage nowMs fake db' claim.resource.id = .serving ∧
      ∃ claim' host', db'.claim? = Function.update db.claim? claim.resource.id (some claim') ∧
        db'.host? = Function.update db.host? host.resource.id (some host') ∧
        claim'.resource.status.hostId = claim.resource.status.hostId ∧
        host'.provided = (host.providerPlanId, some row.id) := by
  obtain ⟨hanswer, hhosts, hclaims⟩ :=
    h.succeeds hsaves hhost hclaim rfl (Database.claim?_generation hclaim)
  obtain ⟨hclaimId, hhostId⟩ :=
    applyProviderObservation_ids claim host ⟨row.id, row.hostId, .ready⟩ now
  rw [hclaimId] at hclaims
  rw [hhostId] at hhosts
  refine ⟨hanswer, ?_, _, _, hclaims, hhosts, rfl, rfl⟩
  have hclaim' := congrFun hclaims claim.resource.id
  have hhost' := congrFun hhosts host.resource.id
  rw [Function.update_self] at hclaim' hhost'
  rw [stage_of_bound hclaim' hbound hhost']
  exact boundStage_of_ready hlive hrow rfl rfl rfl

/-! ## Turns at rest -/

/-- The record of the Host of a turn. -/
theorem Opened.fetched (opened : Opened claim host db) : db.host? host.resource.id = some host :=
  Database.getHost_eq_ok.mp opened.stored

theorem Opened.stage (opened : Opened claim host db)
    (hclaim : db.claim? claim.resource.id = some claim) :
    stage nowMs fake db claim.resource.id = boundStage nowMs fake claim host :=
  stage_of_bound hclaim opened.bound opened.fetched

/-- A Host belongs to the claim it was opened for. -/
theorem Opened.owner (opened : Opened claim host db) (readable : db.Readable)
    (hclaim : db.claim? claim.resource.id = some claim) {other : HostRecord}
    (hother : db.host? host.resource.id = some other) :
    other.resource.claimId = claim.resource.id := by
  obtain ⟨owner, howner, hid⟩ := (Database.claim?_hostId readable hclaim).mp opened.bound
  rw [hother] at howner
  cases howner
  exact hid

/-- A Host is never stored for a claim that has changed meanwhile. -/
theorem Steady.ensureHost (h : Steady db state) (unbound : Unbound nowMs claim)
    (hclaim : db.claim? claim.resource.id = some claim)
    {plan : Plan} {now : Timestamp} {error : AppError}
    (hanswers : fakeProvider.answers state (.selectPlan claim.resource.spec.resources)
      (.ok (some plan)) state')
    (hfresh : ∀ row ∈ db.hosts, row.id ≠ hostId) :
    Storage.ensureHost claim.resource.id plan.id plan.resources hostId now db ≠ .error error := by
  obtain ⟨-, hcases⟩ := h.selectPlan hclaim hanswers
  rcases hcases with ⟨hnone, -⟩ | ⟨plan', hsome, -, hvalid, hlength⟩
  · cases hnone
  · cases hsome
    obtain ⟨host, db', hensure⟩ := Storage.ensureHost_succeeds now hvalid hlength hclaim
      unbound.live unbound.unbound hfresh
    rw [hensure]
    exact fun heq => by cases heq

/-- An idle turn finds its claim at rest and leaves every stage as it was. -/
theorem IdleTurn.rests
    (h : IdleTurn fakeProvider nowMs claim log db state db' state' log') (steady : Steady db state)
    (hclaim : db.claim? claim.resource.id = some claim) (htyped : claim.Typed) :
    Stage.path.steps (stage nowMs state.database db claim.resource.id) = 0 ∧
      stage nowMs state'.database db' = stage nowMs state.database db ∧ Steady db' state' := by
  have readable' := (h.traced steady.readable).1
  cases h with
  | releasePostponed _ opened hdue =>
    refine ⟨?_, rfl, steady⟩
    rw [opened.stage hclaim, boundStage_of_postponed hdue]
    rfl
  | skipped hlive opened hskip =>
    refine ⟨?_, rfl, steady⟩
    rw [opened.stage hclaim]
    rcases hskip with hdue | hfailed
    · rw [boundStage_of_postponed hdue]
      rfl
    · rw [boundStage_of_failed hlive hfailed]
      rfl
  | postponed hlive hunbound hdue =>
    refine ⟨?_, rfl, steady⟩
    rw [stage_of_unbound hclaim hunbound, unboundStage_of_postponed hlive hdue]
    rfl
  | assignStale unbound hanswers hfresh hrefused =>
    exact absurd hrefused (steady.ensureHost unbound hclaim hanswers hfresh)
  | unsatisfiable unbound hanswers hsame =>
    obtain ⟨huntouched, hcases⟩ := steady.selectPlan hclaim hanswers
    refine ⟨?_, huntouched.stage, steady.untouched huntouched⟩
    rcases hcases with ⟨-, hnoPlan⟩ | ⟨plan, hsome, -⟩
    · rw [stage_of_unbound hclaim unbound.unbound, unboundStage_of_due unbound.live unbound.due,
        if_neg hnoPlan, if_pos ((markUnsatisfiable_told htyped _).1.mp hsame)]
      rfl
    · cases hsome
  | @observed host resource now _ _ _ _ _ usable hanswers _ hstable hsave _ hpersisted =>
    obtain ⟨huntouched, hcases⟩ := calm_observe hanswers steady.faultless steady.ready
    rcases hcases with ⟨-, habsent⟩ | ⟨row, hrow, hpresent⟩
    · cases habsent
    cases hpresent
    have hserving : stage nowMs state.database db claim.resource.id = .serving := by
      rw [usable.stage hclaim, boundStage_of_present usable.live usable.due usable.notFailed hrow,
        if_pos hstable]
    have hrecorded : host.resource.status.providerResourceId = some row.id :=
      (ready_of_stable hstable).2.1
    obtain ⟨-, hserves, claim', host', hclaims, hhosts, -, hprovided⟩ :=
      (Published.saved hsave hpersisted).serves nowMs ⟨_, hsave⟩ hclaim usable.live
        usable.bound usable.fetched ((huntouched.resourceRow _).trans hrow)
    refine ⟨by rw [hserving]; rfl, ?_, ?_⟩
    · have helsewhere : Elsewhere claim.resource.id db db' state.database state'.database :=
        .of_updates hclaims hhosts (fun other _ => huntouched.resourceRow other)
          (fun _ => usable.owner steady.readable hclaim) huntouched.plans
      rw [helsewhere.stage steady.readable hserves, ← hserving, Function.update_eq_self]
    · refine (steady.database readable' fun hostId => ?_).untouched huntouched
      rw [hhosts]
      by_cases hsame : hostId = host.resource.id
      · rw [hsame, Function.update_self, usable.fetched, Option.map_some, Option.map_some,
          hprovided]
        unfold HostRecord.provided
        rw [hrecorded]
      · rw [Function.update_of_ne hsame]

/-! ## Turns that make progress -/

/-- A turn that leaves its claim there, bound as it was. -/
theorem Advanced.of_record {claim' : HostClaimRecord} (place : Stage)
    (helsewhere : Elsewhere id db db' state.database state'.database)
    (hclaim : db.claim? id = some claim) (hclaim' : db'.claim? id = some claim')
    (hbound : ∀ hostId, claim.resource.status.hostId = some hostId →
      claim'.resource.status.hostId = some hostId)
    (hbefore : stage nowMs state.database db id = place) (hsteps : Stage.path.steps place ≠ 0)
    (hafter : stage nowMs state'.database db' id = Stage.path.next place)
    (hfaultless : state'.database.Faultless) : Advanced nowMs id db db' state state' := by
  refine ⟨helsewhere, by rwa [hbefore], by rw [hafter, hbefore], hfaultless, ?_⟩
  intro claim₁ claim₂ hostId hclaim₁ hbound₁ hclaim₂
  rw [hclaim] at hclaim₁
  rw [hclaim'] at hclaim₂
  cases hclaim₁
  cases hclaim₂
  exact hbound hostId hbound₁

theorem FakeState.Untouched.refl (hfaultless : state.database.Faultless) :
    state.Untouched state :=
  ⟨rfl, rfl, hfaultless, List.Subset.refl _⟩

/-- A claim is finalized together with its Host. -/
theorem Steady.finalizes (steady : Steady db state) {place : Stage}
    {answer : Except AppError Unit} (hclaim : db.claim? claim.resource.id = some claim)
    (hrun : Storage.run (Storage.finalizeClaim claim.resource.id) db = (answer, db'))
    (huntouched : state.Untouched state')
    (hbefore : stage nowMs state.database db claim.resource.id = place)
    (hsteps : Stage.path.steps place ≠ 0) (hnext : Stage.path.next place = .gone) :
    answer = .ok () ∧ Advanced nowMs claim.resource.id db db' state state' := by
  obtain ⟨row, hmem, hid, -⟩ := Database.claim?_eq_some.mp hclaim
  obtain ⟨db'', hfinalize⟩ := Storage.finalizeClaim_succeeds hmem hid
  have hdone := Storage.run_eq_ok.mpr hfinalize
  rw [hrun] at hdone
  obtain ⟨rfl, rfl⟩ := Prod.mk.inj hdone
  obtain ⟨-, -, hclaims, hhosts⟩ := Storage.finalizeClaim_ok steady.readable hfinalize
  have hgone : db'.claim? claim.resource.id = none := by
    rw [hclaims, Function.update_self]
  refine ⟨rfl, ⟨fun other hne => ?_, fun hostId host hhost hne => ⟨?_, ?_⟩, huntouched.plans⟩,
    by rwa [hbefore], ?_, huntouched.faultless, fun _ _ _ _ _ hclaim' => ?_⟩
  · rw [hclaims, Function.update_of_ne hne]
  · rw [hhosts, hhost]
    simp [Option.filter, hne]
  · exact huntouched.resourceRow hostId
  · rw [stage_of_gone hgone, hbefore, hnext]
  · rw [hgone] at hclaim'
    cases hclaim'

/-- Of two saves of a Host the last one counts. -/
theorem saveHost_twice {first second : HostRecord} {middle : Database}
    (hhost : db.host? hostId = some host)
    (hfirst : Storage.saveHost first db = .ok ((), middle))
    (hsecond : Storage.saveHost second middle = .ok ((), db'))
    (hid : first.resource.id = hostId) (hid' : second.resource.id = hostId) :
    db'.claim? = db.claim? ∧
      db'.host? = Function.update db.host? hostId (some (host.withStatus second)) := by
  subst hid
  obtain ⟨hkept, hhosts⟩ := Storage.saveHost_records hfirst hhost
  have hstored : middle.host? second.resource.id = some (host.withStatus first) := by
    rw [hhosts, hid', Function.update_self]
  obtain ⟨hkept', hhosts'⟩ := Storage.saveHost_records hsecond hstored
  refine ⟨hkept'.trans hkept, ?_⟩
  rw [hhosts', hhosts, hid']
  exact Function.update_idem ..

/-- A Host that is to go loses its resource. -/
theorem Steady.releases (steady : Steady db state) {now : Timestamp} {middle : Database}
    {row : ProviderResourceRow} {answer : Except AppError Unit} {state'' : FakeState}
    {deleted : Except ProviderError DeleteOutcome}
    (hclaim : db.claim? claim.resource.id = some claim)
    (releasable : Releasable nowMs claim host db) (huntouched : state.Untouched state')
    (hrow : state.database.resourceRow host.resource.id = some row)
    (hsave : Storage.saveHost (deletionIntent host ⟨row.id, row.hostId, .ready⟩ now) db =
      .ok ((), middle))
    (hanswers : fakeProvider.answers state' (.delete host.resource.id) deleted state'')
    (hrun : Storage.run (Storage.saveHost
      (afterDelete (deletionIntent host ⟨row.id, row.hostId, .ready⟩ now) nowMs deleted)) middle =
        (answer, db')) :
    answer = .ok () ∧ Advanced nowMs claim.resource.id db db' state state'' := by
  obtain ⟨rfl, hplans, hfaultless, hrows⟩ := calm_delete hanswers huntouched.faultless
  have hstored : middle.host? host.resource.id =
      some (host.withStatus (deletionIntent host ⟨row.id, row.hostId, .ready⟩ now)) := by
    rw [(Storage.saveHost_records hsave releasable.fetched).2]
    exact Function.update_self ..
  have hsucceeds : ∃ db'', Storage.saveHost (afterDelete
      (deletionIntent host ⟨row.id, row.hostId, .ready⟩ now) nowMs (.ok .deleted)) middle =
        .ok ((), db'') := Storage.saveHost_succeeds_of_kept hstored rfl
  obtain ⟨db'', hlast⟩ := hsucceeds
  have hdone := Storage.run_eq_ok.mpr hlast
  rw [hrun] at hdone
  obtain ⟨rfl, rfl⟩ := Prod.mk.inj hdone
  obtain ⟨hclaims, hhosts⟩ := saveHost_twice releasable.fetched hsave hlast rfl rfl
  have hclaim' : db'.claim? claim.resource.id = some claim := by
    rw [hclaims, hclaim]
  have hupdate : db'.claim? = Function.update db.claim? claim.resource.id (some claim) := by
    rw [hclaims, ← hclaim, Function.update_eq_self]
  have hhost' := congrFun hhosts host.resource.id
  rw [Function.update_self] at hhost'
  have helsewhere : Elsewhere claim.resource.id db db' state.database state''.database := by
    refine .of_updates hupdate hhosts (fun other hne => ?_)
      (fun _ => releasable.owner steady.readable hclaim) (hplans.trans huntouched.plans)
    rw [hrows, if_neg hne, huntouched.resourceRow]
  refine ⟨rfl, .of_record .releasing helsewhere hclaim hclaim' (fun _ => id) ?_ (by decide) ?_
    hfaultless⟩
  · rw [releasable.stage hclaim, boundStage_of_deleting releasable.due releasable.deleting, hrow]
    rfl
  · rw [stage_of_bound hclaim' releasable.bound hhost',
      boundStage_of_deleting rfl releasable.deleting]
    change (if (state''.database.resourceRow host.resource.id).isSome = true then Stage.releasing
      else .released) = .released
    rw [hrows, if_pos rfl]
    rfl

/-- A Host whose resource is missing is pending again. -/
theorem Steady.loses (steady : Steady db state) {now : Timestamp} {answer : Except AppError Unit}
    (hclaim : db.claim? claim.resource.id = some claim) (usable : Usable nowMs claim host db)
    (huntouched : state.Untouched state')
    (hrow : state.database.resourceRow host.resource.id = none)
    (hguard : host.resource.status.providerResourceId.isSome ∨
      host.resource.status.phase ≠ .pending)
    (hpublished : Published (markProviderAbsent claim host now) db log answer db' log') :
    answer = .ok () ∧ Advanced nowMs claim.resource.id db db' state state' := by
  have hsaves : ∃ middle,
      Storage.saveHost (markProviderAbsent claim host now).2 db = .ok ((), middle) :=
    steady.saveHost_succeeds usable.fetched fun id hid => by cases hid
  have hfits := Database.claim?_observedGeneration hclaim
  obtain ⟨hanswer, hhosts, hclaims⟩ :=
    hpublished.succeeds hsaves usable.fetched hclaim rfl (by exact hfits)
  change db'.host? = Function.update db.host? host.resource.id _ at hhosts
  change db'.claim? = Function.update db.claim? claim.resource.id _ at hclaims
  have hclaim' := congrFun hclaims claim.resource.id
  have hhost' := congrFun hhosts host.resource.id
  rw [Function.update_self] at hclaim' hhost'
  have helsewhere : Elsewhere claim.resource.id db db' state.database state'.database :=
    .of_updates hclaims hhosts (fun other _ => huntouched.resourceRow other)
      (fun _ => usable.owner steady.readable hclaim) huntouched.plans
  refine ⟨hanswer, .of_record .lost helsewhere hclaim hclaim' (fun _ => id) ?_ (by decide) ?_
    huntouched.faultless⟩
  · rw [usable.stage hclaim, boundStage_of_absent usable.live usable.due usable.notFailed hrow,
      if_pos hguard]
  · rw [stage_of_bound hclaim' usable.bound hhost']
    exact boundStage_of_absent usable.live rfl (fun h => by cases h)
      ((huntouched.resourceRow _).trans hrow)

/-- A pending Host gets a resource. -/
theorem Steady.creates (steady : Steady db state) {now : Timestamp} {middle : Database}
    {state'' : FakeState} {created : Except ProviderError CreateOutcome}
    {answer : Except AppError Unit} (hclaim : db.claim? claim.resource.id = some claim)
    (usable : Usable nowMs claim host db) (huntouched : state.Untouched state')
    (hrow : state.database.resourceRow host.resource.id = none)
    (hunrecorded : host.resource.status.providerResourceId = none)
    (hpending : host.resource.status.phase = .pending)
    (hsave : Storage.saveHost (provisioningIntent host) db = .ok ((), middle))
    (hanswers : fakeProvider.answers state' (.create host.resource.id host.providerPlanId) created
      state'')
    (hpublished : Published (afterCreate claim host nowMs now created) middle log answer db'
      log') :
    answer = .ok () ∧ Advanced nowMs claim.resource.id db db' state state'' := by
  have steady' := steady.untouched huntouched
  obtain ⟨draw, hfresh, rfl, hplans, hfaultless, hrows⟩ := calm_create hanswers
    huntouched.faultless steady'.named ((huntouched.resourceRow _).trans hrow)
    (steady'.countEnabled usable.fetched)
  obtain ⟨hkept, hhosts⟩ := Storage.saveHost_records hsave usable.fetched
  change middle.host? = Function.update db.host? host.resource.id
    (some (provisioningIntent host)) at hhosts
  have hintent : middle.host? (provisioningIntent host).resource.id =
      some (provisioningIntent host) := by
    rw [hhosts]
    exact Function.update_self ..
  have hmiddle : Steady middle state' := by
    obtain ⟨-, -, readable, -⟩ := Storage.saveHost_ok steady.readable hsave
    refine steady'.database readable fun hostId => ?_
    rw [hhosts]
    by_cases hsame : hostId = host.resource.id
    · rw [hsame, Function.update_self, usable.fetched]
      rfl
    · rw [Function.update_of_ne hsame]
  have hclaim' : middle.claim? claim.resource.id = some claim := by
    rw [hkept, hclaim]
  have hnew : state''.database.resourceRow (provisioningIntent host).resource.id =
      some (newResourceRow draw host.resource.id host.providerPlanId) := by
    rw [hrows]
    exact if_pos rfl
  have hpublished : Published (applyProviderObservation claim (provisioningIntent host)
      ⟨(newResourceRow draw host.resource.id host.providerPlanId).id, host.resource.id, .ready⟩
      now) middle log answer db' log' := hpublished
  have hsaves : ∃ last, Storage.saveHost (applyProviderObservation claim
      (provisioningIntent host)
      ⟨(newResourceRow draw host.resource.id host.providerPlanId).id, host.resource.id, .ready⟩
      now).2 middle = .ok ((), last) := by
    refine hmiddle.saveHost_succeeds hintent fun id hid => .inr ⟨draw.uuid, hfresh, ?_⟩
    have hname : some ("fake-" ++ draw.uuid) = some id := hid
    exact (Option.some_inj.mp hname).symm
  obtain ⟨hanswer, hserving, claim', host', hclaims, hhosts', hbound, -⟩ :=
    hpublished.serves nowMs hsaves hclaim' usable.live usable.bound hintent hnew
  rw [hkept] at hclaims
  have hupdate : db'.host? = Function.update db.host? host.resource.id (some host') := by
    rw [hhosts', hhosts]
    exact Function.update_idem ..
  have hstored : db'.claim? claim.resource.id = some claim' := by
    rw [hclaims, Function.update_self]
  have helsewhere : Elsewhere claim.resource.id db db' state.database state''.database := by
    refine .of_updates hclaims hupdate (fun other hne => ?_)
      (fun _ => usable.owner steady.readable hclaim) (hplans.trans huntouched.plans)
    rw [hrows, if_neg hne, huntouched.resourceRow]
  refine ⟨hanswer, .of_record .vacant helsewhere hclaim hstored
    (fun hostId hold => hbound.trans hold) ?_ (by decide) hserving hfaultless⟩
  rw [usable.stage hclaim, boundStage_of_absent usable.live usable.due usable.notFailed hrow,
    if_neg]
  rw [hunrecorded, hpending]
  simp

/-- A claim gets a Host. -/
theorem Steady.places (steady : Steady db state) (unbound : Unbound nowMs claim)
    (hclaim : db.claim? claim.resource.id = some claim) (huntouched : state.Untouched state')
    (hplaceable : Placeable state.database claim) {plan : Plan} {now : Timestamp}
    (hfresh : ∀ row ∈ db.hosts, row.id ≠ hostId)
    (hensure : Storage.ensureHost claim.resource.id plan.id plan.resources hostId now db =
      .ok (host, db')) : Advanced nowMs claim.resource.id db db' state state' := by
  have hnew := (Database.host?_eq_none steady.readable).mpr hfresh
  obtain ⟨stored, hstored, -, hcases⟩ := Storage.ensureHost_ok steady.readable hensure
  rw [hclaim] at hstored
  cases hstored
  rcases hcases with ⟨-, hhost, howner⟩ | ⟨-, -, rfl, hhosts, hclaims⟩
  · have hbound := (Database.claim?_hostId steady.readable hclaim).mpr ⟨host, hhost, howner⟩
    rw [unbound.unbound] at hbound
    cases hbound
  have hnone : state.database.resourceRow hostId = none := by
    rw [FakeDatabase.resourceRow_eq_none]
    intro row hmem heq
    obtain ⟨owner, howner, -⟩ := steady.owned row hmem
    rw [heq, hnew] at howner
    cases howner
  have hclaim' := congrFun hclaims claim.resource.id
  have hhost' := congrFun hhosts hostId
  rw [Function.update_self] at hclaim' hhost'
  have helsewhere : Elsewhere claim.resource.id db db' state.database state'.database := by
    refine .of_updates hclaims hhosts (fun other _ => huntouched.resourceRow other)
      (fun other hother => ?_) huntouched.plans
    rw [hnew] at hother
    cases hother
  refine .of_record .unplaced helsewhere hclaim hclaim' (fun hostId hbound => ?_) ?_ (by decide) ?_
    huntouched.faultless
  · rw [unbound.unbound] at hbound
    cases hbound
  · rw [stage_of_unbound hclaim unbound.unbound, unboundStage_of_due unbound.live unbound.due,
      if_pos hplaceable]
  · rw [stage_of_bound hclaim' rfl hhost']
    refine (boundStage_of_absent unbound.live rfl (fun h => by cases h)
      ((huntouched.resourceRow _).trans hnone)).trans ?_
    rfl

/-- A claim that fits no plan is told so. -/
theorem Unbound.rejects (unbound : Unbound nowMs claim)
    (hclaim : db.claim? claim.resource.id = some claim) (htyped : claim.Typed)
    (huntouched : state.Untouched state') (hnoPlan : ¬Placeable state.database claim)
    {now : Timestamp} {answer : Except AppError Unit}
    (hchanged : (markUnsatisfiable claim now).2 = true)
    (hpersisted : Persisted (markUnsatisfiable claim now).1 db log answer db' log') :
    answer = .ok () ∧ Advanced nowMs claim.resource.id db db' state state' := by
  obtain ⟨htold, htells⟩ := markUnsatisfiable_told htyped now
  have hfits := Database.claim?_generation hclaim
  obtain ⟨hanswer, hhosts, hclaims⟩ := hpersisted.succeeds hclaim rfl (by exact hfits)
  change db'.claim? = Function.update db.claim? claim.resource.id
    (some (markUnsatisfiable claim now).1) at hclaims
  have hclaim' := congrFun hclaims claim.resource.id
  rw [Function.update_self] at hclaim'
  have hnoPlan' : ¬Placeable state'.database (markUnsatisfiable claim now).1 := by
    rintro ⟨row, hmem, hoffers⟩
    exact hnoPlan ⟨row, huntouched.plans ▸ hmem, hoffers⟩
  have helsewhere : Elsewhere claim.resource.id db db' state.database state'.database := by
    refine ⟨fun other hne => ?_, fun hostId host hhost _ => ⟨?_, huntouched.resourceRow hostId⟩,
      huntouched.plans⟩
    · rw [hclaims, Function.update_of_ne hne]
    · rw [hhosts, hhost]
  refine ⟨hanswer, .of_record .misfit helsewhere hclaim hclaim' (fun _ => id) ?_ (by decide) ?_
    huntouched.faultless⟩
  · have hnotTold : ¬claim.ToldUnsatisfiable := by
      rw [← htold, hchanged]
      exact Bool.noConfusion
    rw [stage_of_unbound hclaim unbound.unbound, unboundStage_of_due unbound.live unbound.due,
      if_neg hnoPlan, if_neg hnotTold]
  · have hlive : (markUnsatisfiable claim now).1.resource.deletionTimestamp = none := unbound.live
    rw [stage_of_unbound hclaim' unbound.unbound, unboundStage_of_due hlive rfl,
      if_neg hnoPlan', if_pos htells]
    rfl

/-- The turn of a live Host that has a resource. -/
theorem Steady.serves (steady : Steady db state) {row : ProviderResourceRow} {now : Timestamp}
    {answer : Except AppError Unit} (hclaim : db.claim? claim.resource.id = some claim)
    (usable : Usable nowMs claim host db) (huntouched : state.Untouched state')
    (hrow : state.database.resourceRow host.resource.id = some row)
    (hpublished : Published (applyProviderObservation claim host ⟨row.id, row.hostId, .ready⟩ now)
      db log answer db' log') :
    answer = .ok () ∧
      (providerObservationIsStable host ⟨row.id, row.hostId, .ready⟩ = false →
        Advanced nowMs claim.resource.id db db' state state') := by
  obtain ⟨hmem, hhostId⟩ := FakeDatabase.resourceRow_eq_some.mp hrow
  have hsaves : ∃ middle, Storage.saveHost
      (applyProviderObservation claim host ⟨row.id, row.hostId, .ready⟩ now).2 db =
        .ok ((), middle) := by
    refine steady.saveHost_succeeds usable.fetched fun id hid => .inl ⟨row, hmem, ?_, hhostId⟩
    have hname : some row.id = some id := hid
    exact Option.some_inj.mp hname
  obtain ⟨hanswer, hserving, claim', host', hclaims, hhosts, hbound, -⟩ := hpublished.serves nowMs
    hsaves hclaim usable.live usable.bound usable.fetched ((huntouched.resourceRow _).trans hrow)
  have hclaim' := congrFun hclaims claim.resource.id
  rw [Function.update_self] at hclaim'
  have helsewhere : Elsewhere claim.resource.id db db' state.database state'.database :=
    .of_updates hclaims hhosts (fun other _ => huntouched.resourceRow other)
      (fun _ => usable.owner steady.readable hclaim) huntouched.plans
  refine ⟨hanswer, fun hunstable => .of_record .unstable helsewhere hclaim hclaim'
    (fun hostId hold => hbound.trans hold) ?_ (by decide) hserving huntouched.faultless⟩
  rw [usable.stage hclaim, boundStage_of_present usable.live usable.due usable.notFailed hrow,
    if_neg (by rw [hunstable]; exact Bool.noConfusion)]

/-- The Host of a stored claim can be read. -/
theorem getHost_of_bound (readable : db.Readable)
    (hclaim : db.claim? claim.resource.id = some claim)
    (hbound : claim.resource.status.hostId = some hostId) (error : AppError) :
    Storage.getHost db hostId ≠ .error error := by
  obtain ⟨host, hhost, -⟩ := (Database.claim?_hostId readable hclaim).mp hbound
  rw [Database.getHost_eq_ok.mpr hhost]
  exact fun heq => by cases heq

/-- A turn that is not idle makes progress: its claim goes on to its next stage. -/
theorem TurnOutcome.advances {result : Except AppError ReconcileResult}
    (h : TurnOutcome fakeProvider nowMs claim log db state result db' state' log')
    (steady : Steady db state) (hclaim : db.claim? claim.resource.id = some claim)
    (htyped : claim.Typed) (hidle : result ≠ .ok .idle) :
    result = .ok .progress ∧ Advanced nowMs claim.resource.id db db' state state' := by
  -- without faults the provider answers an observation with what is stored
  have hobserve : ∀ {hostId s' answer},
      fakeProvider.answers state (.observe hostId) answer s' →
        state.Untouched s' ∧ (state.database.resourceRow hostId = none ∧ answer = .ok .absent ∨
          ∃ row, state.database.resourceRow hostId = some row ∧
            answer = .ok (.present ⟨row.id, row.hostId, .ready⟩)) :=
    fun hanswers => calm_observe hanswers steady.faultless steady.ready
  cases h with
  | releasePostponed | skipped | postponed | assignStale | unsatisfiable => exact absurd rfl hidle
  | releaseUnread _ hbound hread | unread _ hbound hread =>
    exact absurd hread (getHost_of_bound steady.readable hclaim hbound _)
  | finalizedUnbound hdeleting hunbound hrun =>
    obtain ⟨rfl, hadvanced⟩ := steady.finalizes hclaim hrun (.refl steady.faultless)
      ((stage_of_unbound hclaim hunbound).trans (unboundStage_of_deleting hdeleting)) (by decide)
      rfl
    exact ⟨rfl, hadvanced⟩
  | finalizedAbsent releasable hanswers hrun =>
    obtain ⟨huntouched, ⟨hrow, -⟩ | ⟨row, -, hpresent⟩⟩ := hobserve hanswers
    · have hreleased : stage nowMs state.database db claim.resource.id = .released := by
        rw [releasable.stage hclaim,
          boundStage_of_deleting releasable.due releasable.deleting, hrow]
        rfl
      obtain ⟨rfl, hadvanced⟩ :=
        steady.finalizes hclaim hrun huntouched hreleased (by decide) rfl
      exact ⟨rfl, hadvanced⟩
    · cases hpresent
  | releaseConflict opened hanswers hconflict | conflict opened hanswers hconflict =>
    obtain ⟨-, ⟨-, habsent⟩ | ⟨row, hrow, hpresent⟩⟩ := hobserve hanswers
    · cases habsent
    · cases hpresent
      rw [steady.recordedHere opened.fetched hrow] at hconflict
      cases hconflict
  | @releaseRefused host resource now _ _ releasable hanswers _ hrefused =>
    obtain ⟨-, ⟨-, habsent⟩ | ⟨row, hrow, hpresent⟩⟩ := hobserve hanswers
    · cases habsent
    · cases hpresent
      obtain ⟨hmem, hhostId⟩ := FakeDatabase.resourceRow_eq_some.mp hrow
      have hsaves : ∃ middle, Storage.saveHost
          (deletionIntent host ⟨row.id, row.hostId, .ready⟩ now) db = .ok ((), middle) :=
        steady.saveHost_succeeds releasable.fetched fun id hid =>
          .inl ⟨row, hmem, Option.some_inj.mp hid, hhostId⟩
      obtain ⟨middle, hsave⟩ := hsaves
      rw [hsave] at hrefused
      cases hrefused
  | released releasable hanswers _ hsave hdeleted hrun =>
    obtain ⟨huntouched, ⟨-, habsent⟩ | ⟨row, hrow, hpresent⟩⟩ := hobserve hanswers
    · cases habsent
    · cases hpresent
      obtain ⟨rfl, hadvanced⟩ :=
        steady.releases hclaim releasable huntouched hrow hsave hdeleted hrun
      exact ⟨rfl, hadvanced⟩
  | releaseError _ hanswers | observeError _ hanswers =>
    obtain ⟨-, ⟨-, habsent⟩ | ⟨row, -, hpresent⟩⟩ := hobserve hanswers
    · cases habsent
    · cases hpresent
  | @observed host resource now _ _ _ _ usable hanswers _ hpublished =>
    obtain ⟨huntouched, ⟨-, habsent⟩ | ⟨row, hrow, hpresent⟩⟩ := hobserve hanswers
    · cases habsent
    · cases hpresent
      obtain ⟨rfl, hadvanced⟩ := steady.serves hclaim usable huntouched hrow hpublished
      by_cases hstable : providerObservationIsStable host ⟨row.id, row.hostId, .ready⟩ = true
      · refine absurd ?_ hidle
        simp [Except.map, hstable]
      · have hunstable := Bool.eq_false_iff.mpr hstable
        refine ⟨?_, hadvanced hunstable⟩
        simp [Except.map, hunstable]
  | absent usable hanswers hguard hpublished =>
    obtain ⟨huntouched, ⟨hrow, -⟩ | ⟨row, -, hpresent⟩⟩ := hobserve hanswers
    · obtain ⟨rfl, hadvanced⟩ := steady.loses hclaim usable huntouched hrow hguard hpublished
      exact ⟨rfl, hadvanced⟩
    · cases hpresent
  | @intentRefused host _ _ usable hanswers hrefused =>
    have hsaves : ∃ middle, Storage.saveHost (provisioningIntent host) db = .ok ((), middle) :=
      Storage.saveHost_succeeds_of_kept usable.fetched rfl
    obtain ⟨middle, hsave⟩ := hsaves
    rw [hsave] at hrefused
    cases hrefused
  | created usable hanswers hunrecorded hpending hsave hcreated hpublished =>
    obtain ⟨huntouched, ⟨hrow, -⟩ | ⟨row, -, hpresent⟩⟩ := hobserve hanswers
    · obtain ⟨rfl, hadvanced⟩ := steady.creates hclaim usable huntouched hrow hunrecorded hpending
        hsave hcreated hpublished
      exact ⟨rfl, hadvanced⟩
    · cases hpresent
  | assigned unbound hanswers hfresh hensure =>
    obtain ⟨huntouched, ⟨hnone, -⟩ | ⟨plan, -, hplaceable, -⟩⟩ :=
      steady.selectPlan hclaim hanswers
    · cases hnone
    · exact ⟨rfl, steady.places unbound hclaim huntouched hplaceable hfresh hensure⟩
  | assignRefused unbound hanswers hfresh hrefused =>
    exact absurd hrefused (steady.ensureHost unbound hclaim hanswers hfresh)
  | rejected unbound hanswers hchanged hpersisted =>
    obtain ⟨huntouched, ⟨-, hnoPlan⟩ | ⟨plan, hsome, -⟩⟩ := steady.selectPlan hclaim hanswers
    · obtain ⟨rfl, hadvanced⟩ :=
        unbound.rejects hclaim htyped huntouched hnoPlan hchanged hpersisted
      exact ⟨rfl, hadvanced⟩
    · cases hsome
  | planError unbound hanswers =>
    obtain ⟨-, ⟨hnone, -⟩ | ⟨plan, hsome, -⟩⟩ := steady.selectPlan hclaim hanswers
    · cases hnone
    · cases hsome

end ControlPlane
