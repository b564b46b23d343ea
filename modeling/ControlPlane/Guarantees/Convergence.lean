import ControlPlane.Guarantees.Healing
import ControlPlane.Guarantees.Progress

/-!
# Convergence

Whatever happened before: once no fault is injected, the clock stands still and nothing
interferes, every pass that is not idle takes one claim one stage further. So the passes come to
rest after at most two for each claim, and what they leave is what was asked for.
-/

namespace ControlPlane

open Interaction Controller FakeProvider

variable {nowMs : Int64} {claim : HostClaimRecord} {claims : List HostClaimRecord}
  {id : HostClaimId} {log log' : Happened} {db db' : Database} {state state' : FakeState}
  {result : Except AppError ReconcileResult}

/-! ## One pass -/

/-- Idle turns find their claims at rest and leave every stage as it was. -/
theorem Idled.rests (h : Idled fakeProvider nowMs claims log db state db' state' log')
    (steady : Steady db state) (hfollows : claims.Pairwise Follows)
    (hclaims : ∀ claim ∈ claims, db.claim? claim.resource.id = some claim ∧ claim.Typed) :
    Steady db' state' ∧ stage nowMs state'.database db' = stage nowMs state.database db ∧
      ∀ claim ∈ claims,
        Stage.path.steps (stage nowMs state.database db claim.resource.id) = 0 := by
  induction h with
  | nil => exact ⟨steady, rfl, fun _ hmem => absurd hmem List.not_mem_nil⟩
  | @cons claim rest _ _ _ _ _ _ _ _ _ hturn _ ih =>
    obtain ⟨hfirst, hrest⟩ := List.pairwise_cons.mp hfollows
    obtain ⟨hstored, htyped⟩ := hclaims claim List.mem_cons_self
    obtain ⟨hsteps, hstage, steady₁⟩ := hturn.rests steady hstored htyped
    obtain ⟨steady', hstage', hsteps'⟩ := ih steady₁ hrest fun other hmem => by
      obtain ⟨hother, hotherTyped⟩ := hclaims other (List.mem_cons_of_mem _ hmem)
      exact ⟨(hturn.kept (hfirst other hmem)).1.trans hother, hotherTyped⟩
    refine ⟨steady', hstage'.trans hstage, fun other hmem => ?_⟩
    rcases List.mem_cons.mp hmem with rfl | hmem
    · exact hsteps
    · rw [← hstage]
      exact hsteps' other hmem

/-- A claim that stays stored stays bound to its Host. -/
def StaysBound (db db' : Database) : Prop :=
  ∀ id claim claim' hostId, db.claim? id = some claim →
    claim.resource.status.hostId = some hostId → db'.claim? id = some claim' →
    claim'.resource.status.hostId = some hostId

theorem Traced.staysBound (h : Traced db db') : StaysBound db db' := by
  intro id claim claim' hostId hclaim hbound hclaim'
  obtain ⟨stored, hstored, -, hsame⟩ := h id claim' hclaim'
  rw [hclaim] at hstored
  cases hstored
  rw [← hsame, hbound]

theorem Advanced.staysBound (h : Advanced nowMs id db db' state state') : StaysBound db db' := by
  intro other claim claim' hostId hclaim hbound hclaim'
  by_cases hother : other = id
  · rw [hother] at hclaim hclaim'
    exact h.bound claim claim' hostId hclaim hbound hclaim'
  · rw [h.elsewhere.claims other hother, hclaim] at hclaim'
    cases hclaim'
    exact hbound

/-- What a pass does to the stages. -/
inductive Round (before after : HostClaimId → Stage) :
    Except AppError ReconcileResult → Prop where
  | idle : (∀ id, Stage.path.steps (before id) = 0) → after = before →
      Round before after (.ok .idle)
  | progress (id : HostClaimId) : Stage.path.steps (before id) ≠ 0 →
      after = Function.update before id (Stage.path.next (before id)) →
      Round before after (.ok .progress)

/-- A claim being deleted is visited as soon as it is listed, and so is a live one. -/
theorem mem_visited_of_truthful (htruthful : claim.Truthful) (hmem : claim ∈ claims) :
    claim ∈ visited nowMs claims := by
  unfold visited
  rw [List.mem_append]
  cases hdeletion : claim.resource.deletionTimestamp with
  | none =>
    refine .inr (List.mem_filter.mpr ⟨hmem, ?_⟩)
    rw [hdeletion]
    rfl
  | some now =>
    refine .inl (List.mem_filter.mpr ⟨hmem, ?_⟩)
    have hnone := (htruthful.deleting (by rw [hdeletion]; rfl)).2
    unfold RetryState.isDue
    rw [hdeletion, hnone]
    rfl

/-- A pass never fails. It is idle where every claim is at rest, and takes a claim one stage
    further otherwise. -/
theorem PassOutcome.round (h : PassOutcome fakeProvider nowMs db state result db' state' log)
    (steady : Steady db state) (hinv : db.Invariant) :
    Round (stage nowMs state.database db) (stage nowMs state'.database db') result ∧
      state'.database.Faultless ∧ StaysBound db db' := by
  cases h with
  | unlisted hunlisted =>
    obtain ⟨claims, hlisted⟩ := Database.listClaims_of_readable steady.readable
    rw [hlisted] at hunlisted
    cases hunlisted
  | @listed claims _ _ _ _ hlisted hvisits =>
  have hclaims : ∀ claim ∈ visited nowMs claims,
      db.claim? claim.resource.id = some claim ∧ claim.Typed := by
    intro claim hmem
    have hstored := ((Database.listClaims_ok hlisted).2 claim).mp (mem_visited hmem)
    exact ⟨hstored, (hinv.claims hstored).typed⟩
  have hfollows : (visited nowMs claims).Pairwise Follows := pairwise_follows hlisted
  cases hvisits with
  | idle hidled =>
    obtain ⟨steady', hstage, hsteps⟩ := hidled.rests steady hfollows hclaims
    refine ⟨.idle (fun id => ?_) hstage, steady'.faultless,
      (hidled.traced steady.readable).2.staysBound⟩
    cases hclaim : db.claim? id with
    | none =>
      rw [stage_of_gone hclaim]
      rfl
    | some claim =>
      obtain rfl := Database.claim?_id hclaim
      have hlistedClaim := ((Database.listClaims_ok hlisted).2 claim).mpr hclaim
      exact hsteps claim (mem_visited_of_truthful (hinv.claims hclaim) hlistedClaim)
  | @stopped before claim rest db₁ state₁ log₁ _ _ _ _ hvisited hidled hstop hne =>
    rw [hvisited] at hclaims hfollows
    obtain ⟨hbefore, -, hacross⟩ := List.pairwise_append.mp hfollows
    obtain ⟨hstored, htyped⟩ :=
      hclaims claim (List.mem_append_right _ List.mem_cons_self)
    obtain ⟨steady₁, hstage, -⟩ := hidled.rests steady hbefore fun other hmem =>
      hclaims other (List.mem_append_left _ hmem)
    have hkept := hidled.kept fun other hmem => hacross other hmem claim List.mem_cons_self
    obtain ⟨rfl, hadvanced⟩ := hstop.advances steady₁ (hkept.1.trans hstored) htyped hne
    have hmoved := hadvanced.elsewhere.stage steady₁.readable hadvanced.next
    rw [hstage] at hmoved
    have hafter : StaysBound db₁ db' := hadvanced.staysBound
    refine ⟨.progress claim.resource.id (hstage ▸ hadvanced.steps) hmoved, hadvanced.faultless, ?_⟩
    intro id stored stored' hostId hid hbound hid'
    have hstill : ∃ middle, db₁.claim? id = some middle := by
      by_cases hmover : id = claim.resource.id
      · exact ⟨claim, hmover ▸ hkept.1.trans hstored⟩
      · exact ⟨stored', (hadvanced.elsewhere.claims id hmover).symm.trans hid'⟩
    obtain ⟨middle, hmiddle⟩ := hstill
    have hbefore := (hidled.traced steady.readable).2.staysBound
    have hbound₁ := hbefore id stored middle hostId hid hbound hmiddle
    exact hafter id middle stored' hostId hmiddle hbound₁ hid'

/-! ## Where a pass leaves the claims at rest -/

/-- Every claim is at rest, and one that serves is Ready. -/
structure Rested (nowMs : Int64) (fake : FakeDatabase) (db : Database) : Prop where
  rest : ∀ id, Stage.path.steps (stage nowMs fake db id) = 0
  ready : ∀ {id claim}, stage nowMs fake db id = .serving → db.claim? id = some claim →
    claim.reports "Ready" = some .true

/-- After an idle pass every claim is at rest. -/
theorem PassOutcome.rested
    (h : PassOutcome fakeProvider nowMs db state (.ok .idle) db' state' log)
    (steady : Steady db state) (hinv : db.Invariant) (hinv' : db'.Invariant) :
    Rested nowMs state'.database db' := by
  obtain ⟨hround, -, hstays⟩ := h.round steady hinv
  cases hround with
  | idle hsteps hsame =>
  refine ⟨fun id => by rw [hsame]; exact hsteps id, fun {id claim'} hserving hclaim' => ?_⟩
  obtain ⟨claim, host, hclaim, hbound, hhost, hbefore⟩ := stage_eq_serving (hsame ▸ hserving)
  obtain ⟨hlive, hdue, row, -, hstable⟩ := boundStage_eq_serving hbefore
  obtain ⟨stored, host', hstored, hbound', hhost', hafter⟩ := stage_eq_serving hserving
  rw [hclaim'] at hstored
  cases hstored
  have hid := hstays id claim claim' host.resource.id hclaim hbound hclaim'
  rw [hbound'] at hid
  have hhealed : Healed claim host.resource.id db db' :=
    h.healed hinv hclaim hlive hbound fun other hother => by
      rw [hhost] at hother
      cases hother
      exact hdue
  obtain rfl := Database.claim?_id hclaim
  cases hhealed with
  | skipped hskipped hfailed =>
    rw [hhost] at hskipped
    cases hskipped
    rw [(ready_of_stable hstable).1] at hfailed
    cases hfailed
  | observed _ _ hobserved hkept hagree =>
    rw [hclaim'] at hobserved
    cases hobserved
    rw [← Option.some_inj.mp hid, hhost'] at hkept
    cases hkept
    obtain ⟨hlive', -, row', -, hstable'⟩ := boundStage_eq_serving hafter
    obtain ⟨hphase, -, herror⟩ := ready_of_stable hstable'
    obtain ⟨owner, howner, hid'⟩ :=
      (Database.claim?_hostId hinv'.readable hclaim').mp hbound'
    rw [hhost'] at howner
    cases howner
    have hconsistent := hinv'.consistent hhost' (hid' ▸ hclaim') hlive'
    rw [hagree]
    exact hconsistent.ready.mpr ⟨hphase, herror⟩

/-! ## Passes one after the other -/

/-- Undisturbed passes one after the other, all at the same time, and what they returned. -/
inductive Passes {σ : Type} (P : ProviderModel σ) (nowMs : Int64) (world : World σ) :
    List (Except AppError ReconcileResult) → World σ → Prop where
  | start : Passes P nowMs world [] world
  | pass {results middle result world' log} : Passes P nowMs world results middle →
      Pass P middle result world' log → log.getLast? = some ⟨.nowUnixMs, nowMs⟩ →
      Passes P nowMs world (results ++ [result]) world'

/-- Between two passes, in a state reached with an unchanging catalog, with no fault injected. -/
structure Calm (world : World FakeState) : Prop where
  reached : Reachable fakeProvider UnchangingCatalog FakeState.seeded (.idle world)
  faultless : world.provider.database.Faultless

/-- The stages of the claims. -/
def World.stages (nowMs : Int64) (world : World FakeState) : HostClaimId → Stage :=
  stage nowMs world.provider.database world.database

variable {world middle world' : World FakeState}
  {results : List (Except AppError ReconcileResult)}

theorem Calm.steady (h : Calm world) : Steady world.database world.provider :=
  steady_of_reachable h.reached h.faultless

theorem Calm.inv (h : Calm world) : world.database.Invariant := by
  have hreach : Reachable fakeProvider UnchangingCatalog FakeState.seeded (.idle world) := h.reached
  exact hreach.sound.inv

/-- A pass changes no catalog. -/
theorem Pass.reach (hpass : Pass fakeProvider world result world' log) :
    (daemon fakeProvider).Reach reconcileOnce UnchangingCatalog (.idle world) (.idle world') := by
  refine System.Reach.of_main .refl hpass fun first label second hlabel hinterfere => ?_
  rw [hinterfere] at hlabel
  exact absurd hlabel (by decide)

theorem Passes.reach (h : Passes fakeProvider nowMs world results world') :
    (daemon fakeProvider).Reach reconcileOnce UnchangingCatalog (.idle world) (.idle world') := by
  induction h with
  | start => exact .refl
  | pass _ hpass _ ih => exact Relation.ReflTransGen.trans ih (Pass.reach hpass)

/-- One pass from a calm state. -/
theorem Calm.pass (h : Calm world) (hpass : Pass fakeProvider world result world' log)
    (hclock : log.getLast? = some ⟨.nowUnixMs, nowMs⟩) :
    Calm world' ∧ Round (world.stages nowMs) (world'.stages nowMs) result ∧
      StaysBound world.database world'.database ∧
      (result = .ok .idle → Rested nowMs world'.provider.database world'.database) := by
  have houtcome := hpass.outcome_at hclock
  obtain ⟨hround, hfaultless, hstays⟩ := houtcome.round h.steady h.inv
  have hcalm : Calm world' := ⟨Relation.ReflTransGen.trans h.reached (Pass.reach hpass), hfaultless⟩
  refine ⟨hcalm, hround, hstays, fun hidle => ?_⟩
  rw [hidle] at houtcome
  exact houtcome.rested h.steady h.inv hcalm.inv

/-- Passes make progress until every claim is at rest, and are idle from then on. -/
theorem Passes.rounds (h : Passes fakeProvider nowMs world results world') (hcalm : Calm world) :
    Calm world' ∧ ∃ progress idle,
      results = List.replicate progress (.ok .progress) ++ List.replicate idle (.ok .idle) ∧
      Stage.path.Rounds (world.stages nowMs) progress (world'.stages nowMs) ∧
      (idle ≠ 0 → Rested nowMs world'.provider.database world'.database) := by
  induction h with
  | start => exact ⟨hcalm, 0, 0, rfl, .none, fun hne => absurd rfl hne⟩
  | @pass results middle result world' log _ hpass hclock ih =>
    obtain ⟨hcalm', progress, idle, rfl, hrounds, hrested⟩ := ih
    obtain ⟨hcalm'', hround, -, hidle⟩ := hcalm'.pass hpass hclock
    refine ⟨hcalm'', ?_⟩
    cases hround with
    | idle _ hsame =>
      refine ⟨progress, idle + 1, ?_, by rw [hsame]; exact hrounds, fun _ => hidle rfl⟩
      rw [List.append_assoc, List.replicate_succ']
    | progress id hsteps hmoved =>
      obtain rfl : idle = 0 := by
        by_contra hne
        exact hsteps ((hrested hne).rest id)
      refine ⟨progress + 1, 0, ?_, ?_, fun hne => absurd rfl hne⟩
      · simp [List.replicate_succ']
      · rw [hmoved]
        exact hrounds.advance id hsteps

theorem Passes.grown (h : Passes fakeProvider nowMs world results world') (hcalm : Calm world) :
    Grown world.provider world'.provider :=
  grown_of_reach hcalm.reached h.reach

/-- While a resource of the Host of a claim is stored, so is the claim. -/
theorem Passes.claim_of_resource (h : Passes fakeProvider nowMs world results world')
    (hcalm : Calm world) {row : ProviderResourceRow}
    (hmem : row ∈ world.provider.database.providerResources)
    (hclaim : world.database.claim? id = some claim)
    (hbound : claim.resource.status.hostId = some row.hostId)
    (hmem' : row ∈ world'.provider.database.providerResources) :
    ∃ claim', world'.database.claim? id = some claim' ∧
      claim'.resource.status.hostId = some row.hostId := by
  have hname := hcalm.steady.named row hmem
  induction h with
  | start => exact ⟨claim, hclaim, hbound⟩
  | @pass results middle result world' log hpasses hpass hclock ih =>
    have hmiddle : Calm middle := (hpasses.rounds hcalm).1
    have hgrown : Grown middle.provider world'.provider :=
      grown_of_reach hmiddle.reached (Pass.reach hpass)
    have hstill : row ∈ middle.provider.database.providerResources := by
      obtain ⟨uuid, hdrawn, hid⟩ := hname
      exact hgrown.old hmem' ⟨uuid, (hpasses.grown hcalm).drawn hdrawn, hid⟩
    obtain ⟨stored, hstored, hkept⟩ := ih hstill
    obtain ⟨-, hround, hstays, -⟩ := hmiddle.pass hpass hclock
    cases hclaim' : world'.database.claim? id with
    | some claim' => exact ⟨claim', rfl, hstays id stored claim' _ hstored hkept hclaim'⟩
    | none =>
      exfalso
      have hgone : world'.stages nowMs id = .gone := stage_of_gone hclaim'
      have hnotGone : middle.stages nowMs id ≠ .gone := by
        intro hbefore
        rw [stage_eq_gone hbefore] at hstored
        cases hstored
      cases hround with
      | idle _ hsame =>
        rw [hsame] at hgone
        exact hnotGone hgone
      | progress mover _ hmoved =>
        rw [hmoved] at hgone
        by_cases hmover : id = mover
        · subst hmover
          rw [Function.update_self] at hgone
          obtain ⟨host, hhost, -⟩ :=
            (Database.claim?_hostId hmiddle.inv.readable hstored).mp hkept
          have hplace : middle.stages nowMs id =
              boundStage nowMs middle.provider.database stored host :=
            stage_of_bound hstored hkept hhost
          rw [hplace] at hgone
          have hnoRow := FakeDatabase.resourceRow_eq_none.mp (boundStage_next_gone hgone)
          exact hnoRow row hstill (Database.host?_id hhost).symm
        · rw [Function.update_of_ne hmover] at hgone
          exact hnotGone hgone

/-! ## What was asked for -/

/-- The Host of a claim is due, if it has one. -/
def HostDue (nowMs : Int64) (db : Database) (claim : HostClaimRecord) : Prop :=
  ∀ hostId host, claim.resource.status.hostId = some hostId → db.host? hostId = some host →
    host.retry.isDue nowMs = true

/-- The claim has a Host that is due and has not failed. -/
def HasUsableHost (nowMs : Int64) (db : Database) (claim : HostClaimRecord) : Prop :=
  ∃ hostId host, claim.resource.status.hostId = some hostId ∧ db.host? hostId = some host ∧
    host.retry.isDue nowMs = true ∧ host.resource.status.phase ≠ .failed

/-- The claim has no Host and is due to get one. -/
def AwaitsHost (nowMs : Int64) (claim : HostClaimRecord) : Prop :=
  claim.resource.status.hostId = none ∧ claim.retry.isDue nowMs = true

/-- A claim is gone, and so are its Host and what resource its Host had. -/
structure Released (world world' : World FakeState) (claim : HostClaimRecord) : Prop where
  noClaim : world'.database.claim? claim.resource.id = none
  noHost : ∀ row ∈ world'.database.hosts, row.claimId ≠ claim.resource.id
  noResource : ∀ row ∈ world.provider.database.providerResources,
    claim.resource.status.hostId = some row.hostId →
      ∀ row' ∈ world'.provider.database.providerResources, row'.id ≠ row.id

/-- A claim is Ready, on a Host in phase ready with one resource, which has the plan of the
    Host. -/
def Served (world : World FakeState) (id : HostClaimId) : Prop :=
  ∃ claim host row, world.database.claim? id = some claim ∧
    claim.resource.status.hostId = some host.resource.id ∧
    world.database.host? host.resource.id = some host ∧
    claim.reports "Ready" = some .true ∧ host.resource.status.phase = .ready ∧
    row ∈ world.provider.database.providerResources ∧ row.hostId = host.resource.id ∧
    row.planId = host.providerPlanId ∧
    ∀ other ∈ world.provider.database.providerResources,
      other.hostId = host.resource.id → other = row

/-- A claim is not accepted, because no plan fits. -/
def Declined (world : World FakeState) (id : HostClaimId) : Prop :=
  ∃ claim condition, world.database.claim? id = some claim ∧
    (claim.resource.status.conditions.find? fun condition =>
      condition.conditionType = "Accepted") = some condition ∧
    condition.status = .false ∧ condition.reason = "Unsatisfiable"

/-- The claims of a world got what they asked for. -/
structure Converged (nowMs : Int64) (world world' : World FakeState) : Prop where
  released : ∀ id claim, world.database.claim? id = some claim →
    claim.resource.deletionTimestamp.isSome → HostDue nowMs world.database claim →
    Released world world' claim
  served : ∀ id claim, world.database.claim? id = some claim →
    claim.resource.deletionTimestamp = none →
    HasUsableHost nowMs world.database claim ∨
      AwaitsHost nowMs claim ∧ Placeable world.provider.database claim →
    Served world' id
  declined : ∀ id claim, world.database.claim? id = some claim →
    claim.resource.deletionTimestamp = none → AwaitsHost nowMs claim →
    ¬Placeable world.provider.database claim → Declined world' id

/-! ### What the stages at the start come to -/

theorem settled_of_deleting (readable : db.Readable) (hclaim : db.claim? id = some claim)
    (hdeleting : claim.resource.deletionTimestamp.isSome) (hdue : HostDue nowMs db claim) :
    Stage.path.settled (stage nowMs fake db id) = .gone := by
  cases hbound : claim.resource.status.hostId with
  | none =>
    rw [stage_of_unbound hclaim hbound, unboundStage_of_deleting hdeleting]
    rfl
  | some hostId =>
    obtain ⟨host, hhost, -⟩ := (Database.claim?_hostId readable hclaim).mp hbound
    rw [stage_of_bound hclaim hbound hhost,
      boundStage_of_deleting (hdue hostId host hbound hhost) hdeleting]
    split <;> rfl

theorem settled_of_live (hclaim : db.claim? id = some claim)
    (hlive : claim.resource.deletionTimestamp = none)
    (hwants : HasUsableHost nowMs db claim ∨ AwaitsHost nowMs claim ∧ Placeable fake claim) :
    Stage.path.settled (stage nowMs fake db id) = .serving := by
  rcases hwants with ⟨hostId, host, hbound, hhost, hdue, hfailed⟩ | ⟨⟨hunbound, hdue⟩, hplaceable⟩
  · rw [stage_of_bound hclaim hbound hhost]
    cases hrow : fake.resourceRow host.resource.id with
    | none =>
      rw [boundStage_of_absent hlive hdue hfailed hrow]
      split <;> rfl
    | some row =>
      rw [boundStage_of_present hlive hdue hfailed hrow]
      split <;> rfl
  · rw [stage_of_unbound hclaim hunbound, unboundStage_of_due hlive hdue, if_pos hplaceable]
    rfl

theorem settled_of_misfit (hclaim : db.claim? id = some claim)
    (hlive : claim.resource.deletionTimestamp = none) (hawaits : AwaitsHost nowMs claim)
    (hmisfit : ¬Placeable fake claim) :
    Stage.path.settled (stage nowMs fake db id) = .rejected := by
  rw [stage_of_unbound hclaim hawaits.1, unboundStage_of_due hlive hawaits.2, if_neg hmisfit]
  split <;> rfl

/-- A claim at the end of its path is where its path ends. -/
theorem Rested.stage_eq {after : HostClaimId → Stage} {start : HostClaimId → Stage} {count : ℕ}
    (hrest : ∀ id, Stage.path.steps (after id) = 0) (hrounds : Stage.path.Rounds start count after)
    (id : HostClaimId) : after id = Stage.path.settled (start id) := by
  rw [← hrounds.settled id, Stage.path.settled_of_steps (hrest id)]

/-- A claim that serves at rest is served. -/
theorem Calm.served (h : Calm world)
    (hrested : Rested nowMs world.provider.database world.database)
    (hserving : world.stages nowMs id = .serving) : Served world id := by
  obtain ⟨claim, host, hclaim, hbound, hhost, hbefore⟩ := stage_eq_serving hserving
  obtain ⟨-, -, row, hrow, hstable⟩ := boundStage_eq_serving hbefore
  obtain ⟨hmem, hhostId⟩ := FakeDatabase.resourceRow_eq_some.mp hrow
  obtain ⟨owner, howner, hplan, -⟩ := h.steady.owned row hmem
  rw [hhostId, hhost] at howner
  cases howner
  refine ⟨claim, host, row, hclaim, hbound, hhost, hrested.ready hserving hclaim,
    (ready_of_stable hstable).1, hmem, hhostId, hplan.symm, fun other hother hsame => ?_⟩
  have hfound := FakeDatabase.resourceRow_eq_some.mpr ⟨hother, hsame⟩
  rw [hrow] at hfound
  exact (Option.some_inj.mp hfound).symm

/-- Nothing is left of a claim that is gone. -/
theorem Passes.released (h : Passes fakeProvider nowMs world results world') (hcalm : Calm world)
    (hclaim : world.database.claim? claim.resource.id = some claim)
    (hgone : world'.database.claim? claim.resource.id = none) : Released world world' claim := by
  have hcalm' : Calm world' := (h.rounds hcalm).1
  refine ⟨hgone, fun row hmem howner => ?_, fun row hmem hbound row' hmem' hid => ?_⟩
  · obtain ⟨host, hhost, hdecode⟩ := hcalm'.inv.readable.host_of_row hmem
    obtain ⟨stored, hstored, -⟩ := Database.host?_claim hcalm'.inv.readable hhost
    rw [(hostColumns hdecode).claimId, howner, hgone] at hstored
    cases hstored
  · obtain rfl := (h.grown hcalm).same hcalm.steady.named hmem hmem' hid
    obtain ⟨stored, hstored, -⟩ := h.claim_of_resource hcalm hmem hclaim hbound hmem'
    rw [hgone] at hstored
    cases hstored

/-- A claim that has been told that no plan fits is declined. -/
theorem declined_of_told (hclaim : world.database.claim? id = some claim)
    (htold : claim.ToldUnsatisfiable) : Declined world id := by
  obtain ⟨condition, hfound, hcondition⟩ := Option.map_eq_some_iff.mp htold.1
  refine ⟨claim, condition, hclaim, hfound, ?_, ?_⟩
  · exact (congrArg Condition.status hcondition)
  · exact (congrArg Condition.reason hcondition)

/-- Once a pass is idle, every claim got what it asked for. -/
theorem Passes.converged (h : Passes fakeProvider nowMs world results world')
    (hcalm : Calm world) (hrested : Rested nowMs world'.provider.database world'.database) {count}
    (hrounds : Stage.path.Rounds (world.stages nowMs) count (world'.stages nowMs)) :
    Converged nowMs world world' := by
  have hcalm' : Calm world' := (h.rounds hcalm).1
  have hfinal := Rested.stage_eq hrested.rest hrounds
  refine ⟨fun id claim hclaim hdeleting hdue => ?_, fun id claim hclaim hlive hwants => ?_,
    fun id claim hclaim hlive hawaits hmisfit => ?_⟩
  · obtain rfl := Database.claim?_id hclaim
    refine h.released hcalm hclaim (stage_eq_gone ((hfinal _).trans ?_))
    exact settled_of_deleting hcalm.inv.readable hclaim hdeleting hdue
  · exact hcalm'.served hrested ((hfinal id).trans (settled_of_live hclaim hlive hwants))
  · obtain ⟨claim', hclaim', htold⟩ :=
      stage_eq_rejected ((hfinal id).trans (settled_of_misfit hclaim hlive hawaits hmisfit))
    exact declined_of_told hclaim' htold

/-! ## Convergence -/

/-- An evaluation is a pass at the time of its clock. -/
theorem pass_eval {σ : Type} {P : ProviderModel σ}
    {provide : σ → (call : ProviderCall) → ProviderAnswer call × σ} (hprovides : P.Provides provide)
    (clock : Clock) (world : World σ) :
    Pass P world (reconcileOnce.eval (World.respond provide clock) world []).1
        (reconcileOnce.eval (World.respond provide clock) world []).2.1
        (reconcileOnce.eval (World.respond provide clock) world []).2.2 ∧
      (reconcileOnce.eval (World.respond provide clock) world []).2.2.getLast? =
        some ⟨.nowUnixMs, clock.nowMs⟩ := by
  have hpass := Runs.of_eval (fun world => World.respond_exec hprovides clock world) reconcileOnce
    world []
  refine ⟨hpass, ?_⟩
  obtain ⟨read, -, houtcome⟩ := Pass.outcome hpass
  have hlast := houtcome.clock
  rcases Program.eval_answer _ _ _ (List.mem_of_getLast? hlast) with hnil | ⟨middle, hanswer⟩
  · cases hnil
  · have hread : read = clock.nowMs := hanswer
    rw [hlast, hread]

/-- With no fault injected, the clock standing still and nothing interfering, a pass never
    fails. At most two for each claim make progress, all after them are idle, and once one is idle
    every claim got what it asked for. -/
theorem converges {c : Daemon FakeState}
    (h : Reachable fakeProvider UnchangingCatalog FakeState.seeded c) (hidle : c.task = none)
    (hfaultless : c.world.provider.database.Faultless) (hclock : 0 ≤ nowMs)
    (hpasses : Passes fakeProvider nowMs c.world results world') :
    (∃ progress idle,
      results = List.replicate progress (.ok .progress) ++ List.replicate idle (.ok .idle) ∧
      progress ≤ 2 * c.world.database.hostClaims.length ∧
      (idle ≠ 0 → Converged nowMs c.world world')) ∧
    ∃ result world'', Passes fakeProvider nowMs c.world (results ++ [result]) world'' := by
  have hcalm : Calm c.world := by
    have hlog := h.log_nil hidle
    obtain ⟨world, task, log⟩ := c
    subst hidle
    subst hlog
    exact ⟨h, hfaultless⟩
  obtain ⟨-, progress, idle, hresults, hrounds, hrested⟩ := hpasses.rounds hcalm
  refine ⟨⟨progress, idle, hresults, ?_, fun hne => hpasses.converged hcalm (hrested hne) hrounds⟩,
    ?_⟩
  · have hothers : ∀ id, id ∉ (c.world.database.hostClaims.map (·.id)).toFinset →
        Stage.path.steps (c.world.stages nowMs id) = 0 := by
      intro id hnot
      have hgone : c.world.database.claim? id = none := by
        refine (Database.claim?_eq_none hcalm.inv.readable).mpr fun row hmem hid => hnot ?_
        exact List.mem_toFinset.mpr (hid ▸ List.mem_map_of_mem hmem)
      show Stage.path.steps (stage nowMs _ _ id) = 0
      rw [stage_of_gone hgone]
      rfl
    calc
      progress ≤ 2 * (c.world.database.hostClaims.map (·.id)).toFinset.card :=
        hrounds.count_le hothers Stage.steps_le
      _ ≤ 2 * (c.world.database.hostClaims.map (·.id)).length :=
        Nat.mul_le_mul_left 2 (List.toFinset_card_le _)
      _ = 2 * c.world.database.hostClaims.length := by rw [List.length_map]
  · obtain ⟨hpass, hread⟩ := pass_eval FakeState.provides ⟨nowMs, ⟨0⟩, hclock⟩ world'
    exact ⟨_, _, hpasses.pass hpass hread⟩

namespace FakeState

/-- Some passes, what they return and the state they end in. -/
def passed (world : World FakeState) :
    ℕ → List (Except AppError ReconcileResult) × World FakeState
  | 0 => ([], world)
  | count + 1 =>
    let earlier := passed world count
    let last := reconcileOnce.eval (World.respond provide .epoch) earlier.2 []
    (earlier.1 ++ [last.1], last.2.1)

theorem passes_passed (world : World FakeState) (count : ℕ) :
    Passes fakeProvider 0 world (passed world count).1 (passed world count).2 := by
  induction count with
  | zero => exact .start
  | succ count ih =>
    obtain ⟨hpass, hread⟩ := pass_eval provides .epoch (passed world count).2
    exact ih.pass hpass hread

/-- A claim with a Host is deleted, and two claims are created, one of which no plan fits. -/
def awaiting : List (Move FakeState) :=
  bound ++ [.markClaimDeleting ⟨"claim"⟩ ⟨1⟩, .createClaim ⟨"small"⟩ ⟨⟨1, 1, 1⟩⟩ ⟨1⟩,
    .createClaim ⟨"large"⟩ ⟨⟨1000, 1, 1⟩⟩ ⟨1⟩]

theorem reachable_awaiting :
    Reachable fakeProvider UnchangingCatalog seeded (played awaiting) := by
  refine Daemon.reachable_plain provides (fun c move hplain hlabel => ?_) (by decide +kernel) .refl
  cases move with
  | createClaim | markClaimDeleting => rfl
  | drift | crash => cases hplain
  | start | perform | finish => cases hlabel

theorem faultless_awaiting : (played awaiting).world.provider.database.Faultless := by
  have hfaults : (played awaiting).world.provider.database.faults = [] := by decide +kernel
  intro operation
  unfold FakeDatabase.remaining
  rw [hfaults]
  rfl

end FakeState

/-- Four passes make progress and the fifth is idle. -/
theorem converges_from_awaiting :
    (FakeState.passed (FakeState.played FakeState.awaiting).world 5).1 =
        List.replicate 4 (.ok .progress) ++ [.ok .idle] ∧
      Converged 0 (FakeState.played FakeState.awaiting).world
        (FakeState.passed (FakeState.played FakeState.awaiting).world 5).2 := by
  have hresults : (FakeState.passed (FakeState.played FakeState.awaiting).world 5).1 =
      List.replicate 4 (.ok .progress) ++ [.ok .idle] := by
    decide +kernel
  refine ⟨hresults, ?_⟩
  obtain ⟨⟨progress, idle, hshape, -, hconverged⟩, -⟩ :=
    converges FakeState.reachable_awaiting (Option.isNone_iff_eq_none.mp (by decide +kernel))
      FakeState.faultless_awaiting (by decide) (FakeState.passes_passed _ 5)
  apply hconverged
  rintro rfl
  rw [hresults] at hshape
  have hlast := congrArg List.getLast? hshape
  simp [List.getLast?_replicate] at hlast

end ControlPlane
