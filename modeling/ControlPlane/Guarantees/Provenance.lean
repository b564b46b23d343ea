import ControlPlane.Guarantees.Assignment
import ControlPlane.Guarantees.Ownership
import ControlPlane.Provider.FakeCalm

/-!
# Where the fake provider's names and plans come from

With an unchanging catalog, every stored Host has a plan of the catalog, every resource is ready
and named after a UUID that was drawn, and a Host records no name of another Host's resource.
-/

namespace ControlPlane

open Interaction FakeProvider

variable {c c' : Daemon FakeState} {label : Label} {db db' : Database}
  {state state' : FakeState}

/-! ## The catalog -/

/-- No step of another party changes the catalog. -/
def UnchangingCatalog (c : Daemon FakeState) (label : Label) (c' : Daemon FakeState) : Prop :=
  label = .interfere → c'.world.provider.database.plans = c.world.provider.database.plans

/-- Seeding the seeded catalog changes nothing. -/
theorem seedCatalog_plans {fake fake' : FakeDatabase} (hplans : fake.plans = seedPlans)
    (h : seedCatalog fake = .ok fake') : fake'.plans = seedPlans := by
  have hupsert : ∀ plan ∈ seedPlans, (if seedPlans.any fun row => row.id = plan.id then
      seedPlans.map fun row => if row.id = plan.id then plan else row
      else seedPlans ++ [plan]) = seedPlans := by decide +kernel
  have hfold : ∀ plans : List PlanRow, (∀ plan ∈ plans, plan ∈ seedPlans) →
      ∀ fake : FakeDatabase, fake.plans = seedPlans →
        plans.foldlM FakeDatabase.upsertPlan fake = .ok fake' → fake'.plans = seedPlans := by
    intro plans
    induction plans with
    | nil =>
      intro _ fake hplans h
      cases h
      exact hplans
    | cons plan plans ih =>
      intro hsub fake hplans h
      rw [List.foldlM_cons] at h
      cases hstep : fake.upsertPlan plan with
      | error text =>
        rw [hstep] at h
        cases h
      | ok middle =>
        rw [hstep] at h
        refine ih (fun other hmem => hsub other (List.mem_cons_of_mem _ hmem)) middle ?_ h
        rw [(FakeDatabase.store_eq_ok.mp hstep).1, hplans]
        exact hupsert plan (hsub plan List.mem_cons_self)
  exact hfold seedPlans (fun _ hmem => hmem) fake hplans h

/-! ## What a step does to the provider -/

/-- What a step does to the resources and to the UUIDs drawn. -/
inductive ProviderChange (state : FakeState) (state' : FakeState) : Prop where
  | kept : state'.database.providerResources = state.database.providerResources →
      state'.drawn = state.drawn → ProviderChange state state'
  | called {draw : Draw} {call} : draw.uuid ∉ state.drawn →
      state'.drawn = draw.uuid :: state.drawn →
      ResourceChange draw state.database.providerResources call
        state'.database.providerResources → ProviderChange state state'

theorem ProviderChange.refl (state : FakeState) : ProviderChange state state :=
  .kept rfl rfl

/-- A step draws at most one UUID and does at most one thing to the resources. -/
theorem provider_change (hstep : (daemon fakeProvider).Step reconcileOnce c label c')
    (hunchanging : UnchangingCatalog c label c')
    (hcatalog : c.world.provider.database.plans = seedPlans) :
    c'.world.provider.database.plans = seedPlans ∧
      ProviderChange c.world.provider c'.world.provider := by
  cases hstep with
  | interfere hother =>
    refine ⟨(hunchanging rfl).trans hcatalog, ?_⟩
    cases hother with
    | drift provider hdrift => exact .kept hdrift.1 hdrift.2
    | _ => exact .refl _
  | start | finish => exact ⟨hcatalog, .refl _⟩
  | @crash world task log world' hcrash =>
    obtain ⟨provider, hcrash, rfl⟩ := hcrash
    obtain ⟨draw, hfresh, hdrawn, hchange⟩ := fakeProvider_crash hcrash
    refine ⟨?_, .called hfresh hdrawn hchange⟩
    obtain ⟨draw, statements, -, -, hseed⟩ := hcrash
    refine seedCatalog_plans ?_ hseed
    unfold interrupted
    split
    · exact hcatalog
    · exact ((keeps_plans draw _ _).1 statements).trans hcatalog
  | @perform world op next answer world' log hexec =>
    refine ⟨(exec_plans hexec).trans hcatalog, ?_⟩
    by_cases hcall : ∃ call, op = .provider call
    · obtain ⟨call, rfl⟩ := hcall
      obtain ⟨provider, hanswers, rfl⟩ := hexec
      obtain ⟨draw, hfresh, hdrawn, hchange⟩ := fakeProvider_answers hanswers
      exact .called hfresh hdrawn hchange
    · show ProviderChange world.provider world'.provider
      rw [provider_of_other (fun call heq => hcall ⟨call, heq⟩) hexec]
      exact .refl _
  | fault hfault =>
    rw [fault_world hfault]
    exact ⟨hcatalog, .refl _⟩

theorem ProviderChange.drawn (h : ProviderChange state state') : state.drawn ⊆ state'.drawn := by
  cases h with
  | kept _ hdrawn =>
    rw [hdrawn]
    exact List.Subset.refl _
  | called _ hdrawn =>
    rw [hdrawn]
    exact List.subset_cons_self _ _

/-- A resource stored after a step was stored before it, or is new and carries a new name. -/
theorem ProviderChange.row (h : ProviderChange state state') {row : ProviderResourceRow}
    (hmem : row ∈ state'.database.providerResources) :
    row ∈ state.database.providerResources ∨
      row.lifecycle = "ready" ∧
        ∃ uuid ∈ state'.drawn, uuid ∉ state.drawn ∧ row.id = "fake-" ++ uuid := by
  cases h with
  | kept hrows =>
    rw [hrows] at hmem
    exact .inl hmem
  | @called draw call hfresh hdrawn hchange =>
    generalize state'.database.providerResources = rows' at hchange hmem
    cases hchange with
    | kept => exact .inl hmem
    | deleted => exact .inl (List.mem_filter.mp hmem).1
    | created =>
      rcases List.mem_append.mp hmem with hmem | hmem
      · exact .inl hmem
      · rw [List.mem_singleton.mp hmem]
        exact .inr ⟨rfl, draw.uuid, hdrawn ▸ List.mem_cons_self, hfresh, rfl⟩

/-- What any number of steps does to the resources: those stored afterwards were stored before,
    or carry names that were not drawn before. -/
structure Grown (state state' : FakeState) : Prop where
  drawn : state.drawn ⊆ state'.drawn
  rows : ∀ row ∈ state'.database.providerResources, row ∈ state.database.providerResources ∨
    ∃ uuid, uuid ∉ state.drawn ∧ row.id = "fake-" ++ uuid

theorem Grown.step {state'' : FakeState} (h : Grown state state')
    (hchange : ProviderChange state' state'') : Grown state state'' := by
  refine ⟨fun uuid hmem => hchange.drawn (h.drawn hmem), fun row hmem => ?_⟩
  rcases hchange.row hmem with hold | ⟨-, uuid, -, hfresh, hname⟩
  · exact h.rows row hold
  · exact .inr ⟨uuid, fun hmem => hfresh (h.drawn hmem), hname⟩

/-- A resource with a name that was drawn before was stored before. -/
theorem Grown.old (h : Grown state state') {row : ProviderResourceRow}
    (hmem : row ∈ state'.database.providerResources)
    (hname : ∃ uuid ∈ state.drawn, row.id = "fake-" ++ uuid) :
    row ∈ state.database.providerResources := by
  obtain ⟨uuid, hdrawn, hname⟩ := hname
  rcases h.rows row hmem with hold | ⟨uuid', hfresh, hname'⟩
  · exact hold
  · have hsame := fake_inj (hname'.symm.trans hname)
    exact absurd (hsame ▸ hdrawn) hfresh

/-- A name that was in use before is that of the same resource. -/
theorem Grown.same (h : Grown state state') (hnamed : state.Named) {row row' : ProviderResourceRow}
    (hmem : row ∈ state.database.providerResources)
    (hmem' : row' ∈ state'.database.providerResources) (hid : row'.id = row.id) : row' = row := by
  have hold := h.old hmem' (hid ▸ hnamed row hmem)
  exact List.inj_on_of_nodup_map state.database.schema.resourceIds hold hmem hid

/-! ## What every reachable state knows -/

/-- A name a Host records was drawn, and is not that of another Host's resource. -/
def RecordedIn (db : Database) (state : FakeState) : Prop :=
  ∀ hostId host id, db.host? hostId = some host →
    host.resource.status.providerResourceId = some id →
    (∃ uuid ∈ state.drawn, id = "fake-" ++ uuid) ∧
      ∀ row ∈ state.database.providerResources, row.id = id → row.hostId = hostId

/-- Every resource is ready and named after a UUID, and so are those the Hosts record. -/
structure Provenance (c : Daemon FakeState) : Prop where
  ready : c.world.provider.database.AllReady
  named : c.world.provider.Named
  recorded : RecordedIn c.world.database c.world.provider

theorem ProviderChange.ready (h : ProviderChange state state')
    (hready : state.database.AllReady) : state'.database.AllReady := by
  intro row hmem
  rcases h.row hmem with hold | ⟨hnew, -⟩
  · exact hready row hold
  · exact hnew

theorem ProviderChange.named (h : ProviderChange state state') (hnamed : state.Named) :
    state'.Named := by
  intro row hmem
  rcases h.row hmem with hold | ⟨-, uuid, hdrawn, -, hname⟩
  · obtain ⟨uuid, hdrawn, hname⟩ := hnamed row hold
    exact ⟨uuid, h.drawn hdrawn, hname⟩
  · exact ⟨uuid, hdrawn, hname⟩

theorem RecordedIn.provider (h : RecordedIn db state) (hchange : ProviderChange state state') :
    RecordedIn db state' := by
  intro hostId host id hhost hid
  obtain ⟨⟨uuid, hdrawn, rfl⟩, howner⟩ := h hostId host id hhost hid
  refine ⟨⟨uuid, hchange.drawn hdrawn, rfl⟩, fun row hmem hname => ?_⟩
  rcases hchange.row hmem with hold | ⟨-, uuid', -, hfresh, hname'⟩
  · exact howner row hold hname
  · have hsame := fake_inj (hname'.symm.trans hname)
    exact absurd (hsame ▸ hdrawn) hfresh

/-- A step of the database alone keeps what is recorded. -/
theorem RecordedIn.database (h : RecordedIn c.world.database c.world.provider)
    (hnamed : c.world.provider.Named) (hownership : Ownership c)
    (sound : System.Sound (discipline fakeProvider) (fun _ log _ => Quiet log) c)
    (hstep : (daemon fakeProvider).Step reconcileOnce c label c') :
    RecordedIn c'.world.database c.world.provider := by
  intro hostId host id hhost hid
  have hchange := host_change sound hstep hostId
  rw [hhost] at hchange
  generalize hbefore : c.world.database.host? hostId = before at hchange
  cases hchange with
  | kept => exact h hostId host id hbefore hid
  | inserted => cases hid
  | saved _ _ hsame hawait =>
    rcases recorded_of_await hawait hownership.recalled hid with
      ⟨stored, hstored, hstoredId⟩ | ⟨row, hmem, hhostId, rfl⟩
    · rw [← hsame] at hstored
      exact h hostId stored id hstored hstoredId
    · refine ⟨hnamed row hmem, fun other hother hname => ?_⟩
      have hrow := List.inj_on_of_nodup_map c.world.provider.database.schema.resourceIds hother
        hmem hname
      rw [hrow, hhostId, hsame]

/-- Every state reached with an unchanging catalog has the seeded one. -/
theorem catalog_of_reachable (h : Reachable fakeProvider UnchangingCatalog FakeState.seeded c) :
    c.world.provider.database.plans = seedPlans :=
  h.invariant (fun c => c.world.provider.database.plans = seedPlans) rfl
    fun _ _ _ _ hstep hunchanging hcatalog => (provider_change hstep hunchanging hcatalog).1

theorem grown_of_reach (h : Reachable fakeProvider UnchangingCatalog FakeState.seeded c)
    (hreach : (daemon fakeProvider).Reach reconcileOnce UnchangingCatalog c c') :
    Grown c.world.provider c'.world.provider := by
  refine hreach.invariant (fun c' => Grown c.world.provider c'.world.provider) ?_ ?_
  · exact ⟨List.Subset.refl _, fun _ hmem => .inl hmem⟩
  intro first label second hfirst hstep hunchanging hgrown
  have hcatalog := catalog_of_reachable (Relation.ReflTransGen.trans h hfirst)
  exact hgrown.step (provider_change hstep hunchanging hcatalog).2

theorem provenance_of_reachable
    (h : Reachable fakeProvider UnchangingCatalog FakeState.seeded c) : Provenance c := by
  refine h.invariant Provenance ?_ ?_
  · refine { ready := ?_, named := ?_, recorded := ?_ }
    · intro row hmem
      exact absurd hmem List.not_mem_nil
    · intro row hmem
      exact absurd hmem List.not_mem_nil
    · intro hostId host id hhost
      cases hhost
  intro first label second hfirst hstep hunchanging hprovenance
  have hchange := (provider_change hstep hunchanging (catalog_of_reachable hfirst)).2
  have hrecorded := hprovenance.recorded.database hprovenance.named
    (ownership_of_reachable rfl hfirst) (Reachable.sound hfirst) hstep
  exact ⟨hchange.ready hprovenance.ready, hchange.named hprovenance.named,
    hrecorded.provider hchange⟩

/-- Every stored Host has an enabled plan of the seeded catalog. -/
theorem planned_of_reachable (h : Reachable fakeProvider UnchangingCatalog FakeState.seeded c)
    {hostId : HostId} {host : HostRecord} (hhost : c.world.database.host? hostId = some host) :
    ∃ row ∈ seedPlans, row.enabled = 1 ∧ row.id = host.providerPlanId := by
  obtain ⟨claim, -, -, selecting, _, _, _, hselecting, -, -, hlisted, -⟩ :=
    adequate_of_reachable h hhost
  obtain ⟨row, hmem, henabled, hlists⟩ := hlisted
  rw [catalog_of_reachable hselecting] at hmem
  exact ⟨row, hmem, henabled, hlists.id.symm⟩

end ControlPlane
