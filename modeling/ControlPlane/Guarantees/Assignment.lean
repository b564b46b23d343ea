import ControlPlane.Controller.Changes
import ControlPlane.Controller.FakeScenario
import ControlPlane.Guarantees.Plans

/-!
# A binding is fixed and adequate

With the fake provider, whatever the catalog is changed to and wherever the daemon crashes: what
was asked for in a claim never changes, nor does what was assigned to it, and a Host offers what
the catalog listed when its plan was selected, which is what the claim asks for or more.
-/

namespace ControlPlane

open Interaction

/-! ## What a step leaves alone -/

/-- The same request. -/
def HostClaimRecord.SameRequest (claim other : HostClaimRecord) : Prop :=
  other.resource.spec = claim.resource.spec ∧
    other.resource.generation = claim.resource.generation ∧
    other.resource.createdAt = claim.resource.createdAt

/-- The same assignment. -/
def HostRecord.SameAssignment (host other : HostRecord) : Prop :=
  other.resource.id = host.resource.id ∧ other.resource.claimId = host.resource.claimId ∧
    other.resource.createdAt = host.resource.createdAt ∧
    other.providerPlanId = host.providerPlanId ∧
    other.resource.allocatableResources = host.resource.allocatableResources

section Fixed

variable {σ : Type} {P : ProviderModel σ} {c c' : Daemon σ} {label : Label}
  {allowed : Daemon σ → Label → Daemon σ → Prop} {provider : σ}

theorem HostClaimRecord.SameRequest.trans {first second third : HostClaimRecord}
    (h : first.SameRequest second) (h' : second.SameRequest third) : first.SameRequest third :=
  ⟨h'.1.trans h.1, h'.2.1.trans h.2.1, h'.2.2.trans h.2.2⟩

theorem HostRecord.SameAssignment.trans {first second third : HostRecord}
    (h : first.SameAssignment second) (h' : second.SameAssignment third) :
    first.SameAssignment third := by
  obtain ⟨hid, hclaimId, hcreatedAt, hplan, hresources⟩ := h
  obtain ⟨hid', hclaimId', hcreatedAt', hplan', hresources'⟩ := h'
  exact ⟨hid'.trans hid, hclaimId'.trans hclaimId, hcreatedAt'.trans hcreatedAt,
    hplan'.trans hplan, hresources'.trans hresources⟩

/-- A step that leaves the claim there leaves its request, and the Host it is bound to. -/
theorem sameRequest_of_change {before after : HostClaimRecord}
    (h : ClaimChange c before (some after)) :
    before.SameRequest after ∧ ∀ hostId, before.resource.status.hostId = some hostId →
      after.resource.status.hostId = some hostId := by
  cases h with
  | kept | requested | written => exact ⟨⟨rfl, rfl, rfl⟩, fun _ => id⟩
  | assigned _ hunbound =>
    refine ⟨⟨rfl, rfl, rfl⟩, fun hostId hbound => ?_⟩
    rw [hunbound] at hbound
    cases hbound

/-- A step that leaves the Host there leaves its assignment. -/
theorem sameAssignment_of_change {hostId : HostId} {before after : HostRecord}
    (h : HostChange c c' hostId (some before) (some after)) : before.SameAssignment after := by
  cases h with
  | kept | saved => exact ⟨rfl, rfl, rfl, rfl, rfl⟩

/-- A step that leaves the claim there leaves its Host there. -/
theorem host_kept (sound : System.Sound (discipline P) (fun _ log _ => Quiet log) c)
    (sound' : System.Sound (discipline P) (fun _ log _ => Quiet log) c')
    (hstep : (daemon P).Step reconcileOnce c label c') {hostId : HostId} {host : HostRecord}
    {after : HostClaimRecord} (hhost : c.world.database.host? hostId = some host)
    (hafter : c'.world.database.claim? host.resource.claimId = some after) :
    ∃ host', c'.world.database.host? hostId = some host' ∧ host.SameAssignment host' := by
  have hinv : c.world.database.Invariant := sound.inv
  have hinv' : c'.world.database.Invariant := sound'.inv
  obtain ⟨claim, hclaim, hbound⟩ := Database.host?_claim hinv.readable hhost
  have hchange := claim_change sound hstep hclaim
  rw [hafter] at hchange
  obtain ⟨host', hhost', -⟩ := (Database.claim?_hostId hinv'.readable hafter).mp
    ((sameRequest_of_change hchange).2 hostId hbound)
  have hkept := host_change sound hstep hostId
  rw [hhost, hhost'] at hkept
  exact ⟨host', hhost', sameAssignment_of_change hkept⟩

/-- The claim with an id is stored. -/
def ClaimStays (id : HostClaimId) : Daemon σ → Label → Daemon σ → Prop :=
  fun _ _ after => ∃ row ∈ after.world.database.hostClaims, row.id = id

/-- While a claim is stored its request stays, and so does the assignment of its Host. -/
theorem request_and_assignment_stay (h : Reachable P allowed provider c) {id : HostClaimId}
    (hrun : (daemon P).Reach reconcileOnce (ClaimStays id) c c') {claim : HostClaimRecord}
    (hclaim : c.world.database.claim? id = some claim) :
    (∃ claim', c'.world.database.claim? id = some claim' ∧ claim.SameRequest claim') ∧
      ∀ hostId host, c.world.database.host? hostId = some host → host.resource.claimId = id →
        ∃ host', c'.world.database.host? hostId = some host' ∧ host.SameAssignment host' := by
  have hreach : ∀ {c''}, (daemon P).Reach reconcileOnce (ClaimStays id) c c'' →
      Reachable P System.anyStep provider c'' :=
    fun hrun => Relation.ReflTransGen.trans h.any hrun.any
  refine hrun.invariant
    (fun c' => (∃ claim', c'.world.database.claim? id = some claim' ∧
        claim.SameRequest claim') ∧
      ∀ hostId host, c.world.database.host? hostId = some host → host.resource.claimId = id →
        ∃ host', c'.world.database.host? hostId = some host' ∧ host.SameAssignment host')
    ⟨⟨claim, hclaim, rfl, rfl, rfl⟩, fun hostId host hhost _ =>
      ⟨host, hhost, rfl, rfl, rfl, rfl, rfl⟩⟩ ?_
  intro first label second hfirst hstep hstays ih
  obtain ⟨⟨middle, hmiddle, hsame⟩, hhosts⟩ := ih
  have sound := (hreach hfirst).sound
  have sound' := sound.step (daemon_obeys P) hstep
  have hinv' : second.world.database.Invariant := sound'.inv
  obtain ⟨row, hmem, hid⟩ := hstays
  obtain ⟨after, hafter, -⟩ := hinv'.readable.claim_of_row hmem
  rw [hid] at hafter
  have hchange := claim_change sound hstep hmiddle
  rw [hafter] at hchange
  refine ⟨⟨after, hafter, hsame.trans (sameRequest_of_change hchange).1⟩,
    fun hostId host hhost howner => ?_⟩
  obtain ⟨between, hbetween, hassignment⟩ := hhosts hostId host hhost howner
  have hbetweenOwner : between.resource.claimId = id := hassignment.2.1.trans howner
  obtain ⟨host', hhost', hassignment'⟩ :=
    host_kept sound sound' hstep hbetween (hbetweenOwner ▸ hafter)
  exact ⟨host', hhost', hassignment.trans hassignment'⟩

end Fixed

/-! ## Where an assignment comes from -/

open FakeProvider

/-- The catalog lists an enabled plan under the id, with these resources. -/
def Catalogued (db : FakeDatabase) (planId : String) (resources : HostResources) : Prop :=
  ∃ row ∈ db.plans, row.enabled = 1 ∧ Lists row ⟨planId, resources⟩

/-- A plan that was selected is in the catalog, and offers what was required. -/
theorem catalogued_of_selectPlan {state state' : FakeState} {requirements : HostResources}
    {plan : Plan}
    (h : fakeProvider.answers state (.selectPlan requirements) (.ok (some plan)) state') :
    Catalogued state.database plan.id plan.resources ∧ AtMost requirements plan.resources := by
  obtain ⟨draw, -, -, hperform⟩ := h
  have hexit := (select_exit draw requirements state.database).1
  change SelectExit requirements state.database
    (FakeProvider.perform draw (.selectPlan requirements) state.database).1 at hexit
  rw [hperform] at hexit
  cases hexit with
  | @found row _ _ hfirst hplan =>
    obtain ⟨hmem, henabled, hvcpus, hmemory, hstorage⟩ :=
      mem_offering.mp (Selection.mem_of_first hfirst)
    have hlists := planFromRow_eq_ok hplan
    refine ⟨⟨row, hmem, henabled, hlists⟩, ?_, ?_, ?_⟩
    · have := hlists.vcpus
      omega
    · have := hlists.memoryBytes
      omega
    · have := hlists.storageBytes
      omega

section Adequate

variable {allowed : Daemon FakeState → Label → Daemon FakeState → Prop} {provider : FakeState}
  {c c' : Daemon FakeState} {label : Label}

/-- The catalog is not edited while a pass is in progress. -/
def CatalogSettled (allowed : Daemon FakeState → Label → Daemon FakeState → Prop) : Prop :=
  ∀ before after, allowed before .interfere after → before.task ≠ none →
    after.world.provider.database.plans = before.world.provider.database.plans

/-- An answered effect does not change the catalog. -/
theorem exec_plans {world world' : World FakeState} {effect : Effect} {answer : Answer effect}
    (h : World.exec fakeProvider world effect answer world') :
    world'.provider.database.plans = world.provider.database.plans := by
  by_cases hcall : ∃ call, effect = .provider call
  · obtain ⟨call, rfl⟩ := hcall
    obtain ⟨state, ⟨draw, -, -, hperform⟩, rfl⟩ := h
    have hplans := (keeps_plans draw call world.provider.database).2
    change (FakeProvider.perform draw call world.provider.database).2.plans = _ at hplans
    rw [hperform] at hplans
    exact hplans
  · rw [provider_of_other (fun call heq => hcall ⟨call, heq⟩) h]

/-- While the catalog is settled, a plan selected in a pass stays in the catalog for the rest of
    the pass. -/
theorem catalogued_of_log (hsettled : CatalogSettled allowed)
    (h : Reachable fakeProvider allowed provider c) {requirements : HostResources} {plan : Plan}
    (hmem : ⟨.provider (.selectPlan requirements), .ok (some plan)⟩ ∈ c.log) :
    Catalogued c.world.provider.database plan.id plan.resources := by
  have hboth : (c.task = none → c.log = []) ∧
      ∀ requirements plan, ⟨.provider (.selectPlan requirements), .ok (some plan)⟩ ∈ c.log →
        Catalogued c.world.provider.database plan.id plan.resources := by
    refine h.invariant (fun c => (c.task = none → c.log = []) ∧
      ∀ requirements plan, ⟨.provider (.selectPlan requirements), .ok (some plan)⟩ ∈ c.log →
        Catalogued c.world.provider.database plan.id plan.resources) ?_ ?_
    · exact ⟨fun _ => rfl, fun _ _ hmem => nomatch hmem⟩
    rintro first label second - hstep hok ⟨hlog, hlisted⟩
    have hkept : ∀ {log : Happened}, log = first.log →
        second.world.provider.database.plans = first.world.provider.database.plans →
        ∀ requirements plan, ⟨.provider (.selectPlan requirements), .ok (some plan)⟩ ∈ log →
          Catalogued second.world.provider.database plan.id plan.resources := by
      rintro log rfl hplans requirements plan hmem
      obtain ⟨row, hrow, hrest⟩ := hlisted requirements plan hmem
      exact ⟨row, hplans ▸ hrow, hrest⟩
    cases hstep with
    | interfere hother =>
      refine ⟨hlog, fun requirements plan hmem => ?_⟩
      refine hkept rfl (hsettled _ _ hok fun htask => ?_) requirements plan hmem
      rw [hlog htask] at hmem
      cases hmem
    | start => exact ⟨fun htask => (by cases htask), fun _ _ hmem => nomatch hmem⟩
    | finish => exact ⟨fun _ => rfl, fun _ _ hmem => nomatch hmem⟩
    | crash => exact ⟨fun _ => rfl, fun _ _ hmem => nomatch hmem⟩
    | perform hexec =>
      refine ⟨fun htask => (by cases htask), fun requirements plan hmem => ?_⟩
      have hplans := exec_plans hexec
      rcases List.mem_cons.mp hmem with heq | hmem
      · cases heq
        obtain ⟨state, hanswers, -⟩ := hexec
        obtain ⟨row, hrow, hrest⟩ := (catalogued_of_selectPlan hanswers).1
        exact ⟨row, hplans ▸ hrow, hrest⟩
      · exact hkept rfl hplans requirements plan hmem
    | fault hfault =>
      refine ⟨fun htask => (by cases htask), fun requirements plan hmem => ?_⟩
      rcases List.mem_cons.mp hmem with heq | hmem
      · cases heq
        cases hfault
      · exact hkept rfl (by rw [fault_world hfault]) requirements plan hmem
  exact hboth.2 requirements plan hmem

/-- The run to `c` selected a plan for the requirements, from a catalog that listed it with these
    resources, and later inserted the Host of the claim with them. Where the catalog is not edited
    during a pass, it still lists the plan then. -/
def AssignedFrom (allowed : Daemon FakeState → Label → Daemon FakeState → Prop)
    (provider : FakeState) (c : Daemon FakeState) (requirements : HostResources)
    (host : HostRecord) : Prop :=
  ∃ selecting selected assigning assigned : Daemon FakeState,
    Reachable fakeProvider allowed provider selecting ∧
    (∃ label, (daemon fakeProvider).Step reconcileOnce selecting label selected ∧
      allowed selecting label selected) ∧
    selecting.pending = some (.provider (.selectPlan requirements)) ∧
    Catalogued selecting.world.provider.database host.providerPlanId
      host.resource.allocatableResources ∧
    (daemon fakeProvider).Reach reconcileOnce allowed selected assigning ∧
    (∃ label, (daemon fakeProvider).Step reconcileOnce assigning label assigned ∧
      allowed assigning label assigned) ∧
    assigning.pending = some (.ensureHost host.resource.claimId host.providerPlanId
      host.resource.allocatableResources) ∧
    assigning.world.database.host? host.resource.id = none ∧
    (∃ inserted, assigned.world.database.host? host.resource.id = some inserted) ∧
    (CatalogSettled allowed → Catalogued assigning.world.provider.database host.providerPlanId
      host.resource.allocatableResources) ∧
    (daemon fakeProvider).Reach reconcileOnce allowed assigned c

theorem AssignedFrom.step {requirements : HostResources} {host : HostRecord}
    (h : AssignedFrom allowed provider c requirements host)
    (hstep : (daemon fakeProvider).Step reconcileOnce c label c') (hok : allowed c label c') :
    AssignedFrom allowed provider c' requirements host := by
  obtain ⟨selecting, selected, assigning, assigned, hselecting, hselect, hpending, hlisted,
    hbetween, hassign, hassigning, hnone, hinserted, hsettled, hafter⟩ := h
  exact ⟨selecting, selected, assigning, assigned, hselecting, hselect, hpending, hlisted,
    hbetween, hassign, hassigning, hnone, hinserted, hsettled, hafter.step hstep hok⟩

/-- It is the assignment that matters, not what is published about the Host. -/
theorem AssignedFrom.of_same {requirements : HostResources} {host host' : HostRecord}
    (h : AssignedFrom allowed provider c requirements host) (hsame : host.SameAssignment host') :
    AssignedFrom allowed provider c requirements host' := by
  obtain ⟨hid, hclaimId, -, hplan, hresources⟩ := hsame
  unfold AssignedFrom
  rw [hid, hclaimId, hplan, hresources]
  exact h

/-- What is stored of a Host and its claim: the Host offers what the claim asks for, and was
    assigned from the catalog. -/
def Adequate (allowed : Daemon FakeState → Label → Daemon FakeState → Prop) (provider : FakeState)
    (c : Daemon FakeState) (host : HostRecord) : Prop :=
  ∃ claim, c.world.database.claim? host.resource.claimId = some claim ∧
    AtMost claim.resource.spec.resources host.resource.allocatableResources ∧
    AssignedFrom allowed provider c claim.resource.spec.resources host

/-- An assignment that is there stays adequate. -/
theorem Adequate.step {host host' : HostRecord} {hostId : HostId}
    (h : Adequate allowed provider c host) (hreach : Reachable fakeProvider allowed provider c)
    (hstep : (daemon fakeProvider).Step reconcileOnce c label c') (hok : allowed c label c')
    (hhost' : c'.world.database.host? hostId = some host') (hsame : host.SameAssignment host') :
    Adequate allowed provider c' host' := by
  obtain ⟨claim, hclaim, henough, hassigned⟩ := h
  have hreach' : Reachable fakeProvider allowed provider c' := hreach.step hstep hok
  have hinv' : c'.world.database.Invariant := hreach'.sound.inv
  obtain ⟨claim', hclaim', -⟩ := Database.host?_claim hinv'.readable hhost'
  rw [hsame.2.1] at hclaim'
  have hchange := claim_change hreach.sound hstep hclaim
  rw [hclaim'] at hchange
  have hspec := (sameRequest_of_change hchange).1.1
  refine ⟨claim', hsame.2.1 ▸ hclaim', ?_, ?_⟩
  · rw [hspec, hsame.2.2.2.2]
    exact henough
  · rw [hspec]
    exact (hassigned.of_same hsame).step hstep hok

/-- An assignment is adequate when it is made. -/
theorem adequate_of_inserted (hreach : Reachable fakeProvider allowed provider c)
    (hstep : (daemon fakeProvider).Step reconcileOnce c label c') (hok : allowed c label c')
    {claimId : HostClaimId} {planId : String} {resources : HostResources} {hostId : HostId}
    {now : Timestamp} (hpending : c.pending = some (.ensureHost claimId planId resources))
    (hnone : c.world.database.host? hostId = none)
    (hhost' : c'.world.database.host? hostId =
      some (Storage.newHost claimId planId resources hostId now)) :
    Adequate allowed provider c' (Storage.newHost claimId planId resources hostId now) := by
  have hawait := hreach.sound.issue hpending
  have hreach' : Reachable fakeProvider allowed provider c' := hreach.step hstep hok
  have hinv' : c'.world.database.Invariant := hreach'.sound.inv
  change AwaitPoint c.log c.world.database (.ensureHost claimId planId resources) at hawait
  generalize hlog : c.log = log at hawait
  generalize hdb : c.world.database = db at hawait
  cases hawait with
  | @ensureHost nowMs claim plan base db turn =>
    have hmem : (⟨.provider (.selectPlan claim.resource.spec.resources), .ok (some plan)⟩ :
        Event Effect Answer) ∈ c.log := by
      rw [hlog]
      exact List.mem_cons_self
    obtain ⟨selecting, selected, hselecting, hselect, hselected, hasked, -, hexec⟩ :=
      System.Reach.performed hreach hmem
    have hanswers : ∃ state, fakeProvider.answers selecting.world.provider
        (.selectPlan claim.resource.spec.resources) (.ok (some plan)) state := by
      rcases hexec with ⟨state, hanswers, -⟩ | hfault
      · exact ⟨state, hanswers⟩
      · cases hfault
    obtain ⟨state, hanswers⟩ := hanswers
    obtain ⟨hlisted, henough⟩ := catalogued_of_selectPlan hanswers
    obtain ⟨stored, hstored, hspec⟩ : ∃ stored,
        c.world.database.claim? claim.resource.id = some stored ∧
          stored.resource.spec = claim.resource.spec := by
      rw [hdb]
      rcases turn.fresh with hfresh | ⟨-, now', hfresh⟩
      · exact ⟨_, hfresh, rfl⟩
      · exact ⟨_, hfresh, rfl⟩
    obtain ⟨claim', hclaim', -⟩ := Database.host?_claim hinv'.readable hhost'
    have hchange := claim_change hreach.sound hstep hstored
    change c'.world.database.claim? claim.resource.id = some claim' at hclaim'
    rw [hclaim'] at hchange
    have hspec' : claim'.resource.spec = claim.resource.spec :=
      (sameRequest_of_change hchange).1.1.trans hspec
    refine ⟨claim', hclaim', ?_, ?_⟩
    · rw [hspec']
      exact henough
    · rw [hspec']
      exact ⟨selecting, selected, c, c', hselecting, hselect, hasked, hlisted, hselected,
        ⟨label, hstep, hok⟩, hpending, hnone, ⟨_, hhost'⟩,
        fun hsettled => catalogued_of_log hsettled hreach hmem, .refl⟩

/-- Every stored Host is adequate. -/
theorem adequate_of_reachable (h : Reachable fakeProvider allowed provider c) {hostId : HostId}
    {host : HostRecord} (hhost : c.world.database.host? hostId = some host) :
    Adequate allowed provider c host := by
  refine h.invariant (fun c => ∀ hostId host, c.world.database.host? hostId = some host →
    Adequate allowed provider c host) ?_ ?_ hostId host hhost
  · intro hostId host hhost
    cases hhost
  intro first label second hfirst hstep hok ih hostId host hhost
  have hchange := host_change (Reachable.sound hfirst) hstep hostId
  rw [hhost] at hchange
  generalize hbefore : first.world.database.host? hostId = before at hchange
  cases before with
  | some before =>
    exact (ih hostId before hbefore).step hfirst hstep hok hhost (sameAssignment_of_change hchange)
  | none =>
    cases hchange with
    | inserted hpending =>
      exact adequate_of_inserted hfirst hstep hok hpending hbefore hhost

/-- In every run with the fake provider: every stored row can be read; as long as a claim is
    stored, its specification, generation and creation time are the same, and so are the id, claim,
    creation time, plan and resources of a Host once it has been assigned; and what the Host
    offers is at least what its claim asks for, and is what the catalog listed for its plan when
    the run selected it for the assignment. -/
theorem binding_is_fixed_and_adequate (h : Reachable fakeProvider allowed provider c) :
    ((∀ row ∈ c.world.database.hostClaims, ∃ claim,
        Storage.getClaim c.world.database row.id = .ok claim) ∧
      ∀ row ∈ c.world.database.hosts, ∃ host,
        Storage.getHost c.world.database row.id = .ok host) ∧
    (∀ id claim c', Storage.getClaim c.world.database id = .ok claim →
      (daemon fakeProvider).Reach reconcileOnce (ClaimStays id) c c' →
      (∃ claim', Storage.getClaim c'.world.database id = .ok claim' ∧
        claim.SameRequest claim') ∧
      ∀ hostId host, Storage.getHost c.world.database hostId = .ok host →
        host.resource.claimId = id →
        ∃ host', Storage.getHost c'.world.database hostId = .ok host' ∧
          host.SameAssignment host') ∧
    ∀ hostId host, Storage.getHost c.world.database hostId = .ok host →
      ∃ claim, Storage.getClaim c.world.database host.resource.claimId = .ok claim ∧
        AtMost claim.resource.spec.resources host.resource.allocatableResources ∧
        AssignedFrom allowed provider c claim.resource.spec.resources host := by
  have hinv : c.world.database.Invariant := h.sound.inv
  refine ⟨⟨fun row hmem => ?_, fun row hmem => ?_⟩, fun id claim c' hclaim hrun => ?_,
    fun hostId host hhost => ?_⟩
  · obtain ⟨claim, hclaim, -⟩ := hinv.readable.claim_of_row hmem
    exact ⟨claim, Database.getClaim_eq_ok.mpr hclaim⟩
  · obtain ⟨host, hhost, -⟩ := hinv.readable.host_of_row hmem
    exact ⟨host, Database.getHost_eq_ok.mpr hhost⟩
  · obtain ⟨⟨claim', hclaim', hsame⟩, hhosts⟩ :=
      request_and_assignment_stay h hrun (Database.getClaim_eq_ok.mp hclaim)
    refine ⟨⟨claim', Database.getClaim_eq_ok.mpr hclaim', hsame⟩,
      fun hostId host hhost howner => ?_⟩
    obtain ⟨host', hhost', hassignment⟩ :=
      hhosts hostId host (Database.getHost_eq_ok.mp hhost) howner
    exact ⟨host', Database.getHost_eq_ok.mpr hhost', hassignment⟩
  · obtain ⟨claim, hclaim, henough, hassigned⟩ :=
      adequate_of_reachable h (Database.getHost_eq_ok.mp hhost)
    exact ⟨claim, Database.getClaim_eq_ok.mpr hclaim, henough, hassigned⟩

/-- The claim of a small request gets a Host with the cheapest plan of the catalog. -/
theorem adequate_of_bound :
    ∃ host claim, Storage.getHost (FakeState.played FakeState.bound).world.database
        (Database.unusedHostId Database.empty) = .ok host ∧
      host.providerPlanId = "fake-2c-4g-40g" ∧
      Storage.getClaim (FakeState.played FakeState.bound).world.database host.resource.claimId =
        .ok claim ∧
      AtMost claim.resource.spec.resources host.resource.allocatableResources := by
  have hreach : Reachable fakeProvider System.anyStep FakeState.seeded
      (FakeState.played FakeState.bound) := FakeState.reachable (by decide)
  obtain ⟨host, hhost, hplan⟩ : ∃ host,
      Storage.getHost (FakeState.played FakeState.bound).world.database
        (Database.unusedHostId Database.empty) = .ok host ∧
      host.providerPlanId = "fake-2c-4g-40g" := by
    cases hhost : Storage.getHost (FakeState.played FakeState.bound).world.database
        (Database.unusedHostId Database.empty) with
    | error error =>
      have hok : (Storage.getHost (FakeState.played FakeState.bound).world.database
        (Database.unusedHostId Database.empty)).toOption.isSome = true := by decide +kernel
      rw [hhost] at hok
      cases hok
    | ok host =>
      have hplan : (Storage.getHost (FakeState.played FakeState.bound).world.database
        (Database.unusedHostId Database.empty)).toOption.map (·.providerPlanId) =
          some "fake-2c-4g-40g" := by decide +kernel
      rw [hhost] at hplan
      exact ⟨host, rfl, Option.some_inj.mp hplan⟩
  obtain ⟨-, -, hadequate⟩ := binding_is_fixed_and_adequate hreach
  obtain ⟨claim, hclaim, henough, -⟩ := hadequate _ host hhost
  exact ⟨host, claim, hhost, hplan, hclaim, henough⟩

end Adequate

end ControlPlane
