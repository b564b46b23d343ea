import ControlPlane.Provider.FakeSpecs

/-!
# The fake provider as a provider

The fake provider behind the boundary the controller sees. Its state is its database together
with the UUIDs it has drawn, none of which is drawn again. Besides the calls of the controller,
the catalog and the fault counters may be set by hand; the resources may not. A crash may cut a
call short between any two of its statements, and the restart seeds the catalog.
-/

namespace ControlPlane

open Interaction Interaction.Fallible

/-- The fake provider's state. -/
structure FakeState where
  database : FakeDatabase
  drawn : List String

namespace FakeProvider

/-- What a crash leaves of the call it falls into. -/
def interrupted (draw : Draw) (statements : Nat) (db : FakeDatabase) :
    Option ProviderCall → FakeDatabase
  | none => db
  | some call => (method call).cutShort (reply draw) statements db

end FakeProvider

/-- The fake provider. -/
def fakeProvider : ProviderModel FakeState where
  answers state call answer state' :=
    ∃ draw, draw.uuid ∉ state.drawn ∧ state'.drawn = draw.uuid :: state.drawn ∧
      FakeProvider.perform draw call state.database = (answer, state'.database)
  drift state state' :=
    state'.database.providerResources = state.database.providerResources ∧
      state'.drawn = state.drawn
  crash state pending state' :=
    ∃ draw statements, draw.uuid ∉ state.drawn ∧ state'.drawn = draw.uuid :: state.drawn ∧
      FakeProvider.seedCatalog (FakeProvider.interrupted draw statements state.database pending) =
        .ok state'.database

namespace FakeProvider

variable {draw : Draw} {db db' : FakeDatabase} {hostId : HostId} {planId : String}

/-! ## A call is atomic for the resources -/

/-- The resources, as a view of the database. -/
def resources (db : FakeDatabase) : List ProviderResourceRow :=
  db.providerResources

theorem keeps_faultFires (operation : String) (db : FakeDatabase) :
    (faultFires operation).run.Keeps (reply draw) resources db := by
  obtain ⟨db', hconsume, hspent⟩ := perform_consumeFault operation db
  apply Program.keeps_perform
  show ((consumeFault operation).perform db).2.providerResources = _
  rw [hconsume]
  exact hspent.providerResources

theorem keeps_ask {statement : Statement} (h : (reply draw db statement).2 = db) :
    (ask statement : Method _).run.Keeps (reply draw) resources db :=
  Program.keeps_bind (Program.keeps_perform (congrArg resources h)) (Program.keeps_done _)

theorem keeps_attempt {α : Type} (value : Except ProviderError α) (db : FakeDatabase) :
    (attempt (.done value) : Method α).run.Keeps (reply draw) resources db :=
  Program.keeps_done value

theorem keeps_pure {α : Type} (value : α) (db : FakeDatabase) :
    (pure value : Method α).run.Keeps (reply draw) resources db :=
  Program.keeps_done _

theorem keeps_throw {α : Type} (error : ProviderError) (db : FakeDatabase) :
    (throw error : Method α).run.Keeps (reply draw) resources db :=
  Program.keeps_done _

theorem keeps_resourceByHost (hostId : HostId) (db : FakeDatabase) :
    (resourceByHost hostId).run.Keeps (reply draw) resources db := by
  refine keeps_bind (keeps_ask rfl) fun row db' _ => ?_
  cases row with
  | none => exact keeps_pure _ _
  | some row => exact keeps_bind (keeps_attempt _ _) fun _ _ _ => keeps_pure _ _

theorem keeps_selectPlan (requirements : HostResources) (db : FakeDatabase) :
    (selectPlan requirements).run.Keeps (reply draw) resources db := by
  refine keeps_bind (keeps_attempt _ _) fun memory _ _ => ?_
  refine keeps_bind (keeps_attempt _ _) fun storage _ _ => ?_
  refine keeps_bind (keeps_ask rfl) fun row _ _ => ?_
  cases row with
  | none => exact keeps_pure _ _
  | some row => exact keeps_bind (keeps_attempt _ _) fun _ _ _ => keeps_pure _ _

theorem keeps_observe (hostId : HostId) (db : FakeDatabase) :
    (observe hostId).run.Keeps (reply draw) resources db := by
  refine keeps_bind (keeps_faultFires _ _) fun fires _ _ => ?_
  cases fires with
  | true => exact keeps_throw _ _
  | false =>
    refine keeps_bind (keeps_resourceByHost _ _) fun resource _ _ => ?_
    cases resource <;> exact keeps_pure _ _

theorem atomic_insertNew (hostId : HostId) (planId : String) (db : FakeDatabase) :
    (insertNew hostId planId).run.Atomic (reply draw) resources db := by
  refine keeps_bind_atomic (keeps_ask rfl) fun count _ _ => ?_
  split
  · exact (keeps_throw _ _).atomic
  refine keeps_bind_atomic (keeps_faultFires _ _) fun lost _ _ => ?_
  refine keeps_bind_atomic (keeps_ask rfl) fun uuid _ _ => ?_
  refine keeps_bind_atomic (keeps_ask rfl) fun now _ _ => ?_
  refine atomic_bind_keeps (Program.atomic_perform _) fun _ _ _ => ?_
  exact keeps_pure _ _

theorem keeps_selectPlanId (hostId : HostId) (db : FakeDatabase) :
    (attempt (Program.perform (Statement.selectPlanId hostId)) : Method String).run.Keeps
      (reply draw) resources db :=
  Program.keeps_perform rfl

theorem atomic_create (hostId : HostId) (planId : String) (db : FakeDatabase) :
    (create hostId planId).run.Atomic (reply draw) resources db := by
  refine keeps_bind_atomic (keeps_faultFires _ _) fun definitive _ _ => ?_
  cases definitive with
  | true => exact (keeps_throw _ _).atomic
  | false =>
    refine keeps_bind_atomic (keeps_faultFires _ _) fun transient _ _ => ?_
    cases transient with
    | true => exact (keeps_throw _ _).atomic
    | false =>
      refine keeps_bind_atomic (keeps_resourceByHost _ _) fun existing _ _ => ?_
      cases existing with
      | none => exact atomic_insertNew hostId planId _
      | some resource =>
        refine (keeps_bind (keeps_selectPlanId _ _) fun existingPlan _ _ => ?_).atomic
        split
        · exact keeps_throw _ _
        · exact keeps_pure _ _

theorem atomic_delete (hostId : HostId) (db : FakeDatabase) :
    (delete hostId).run.Atomic (reply draw) resources db := by
  refine keeps_bind_atomic (keeps_faultFires _ _) fun transient _ _ => ?_
  cases transient with
  | true => exact (keeps_throw _ _).atomic
  | false =>
    refine keeps_bind_atomic (keeps_faultFires _ _) fun lost _ _ => ?_
    refine atomic_bind_keeps (Program.atomic_perform _) fun _ _ _ => ?_
    exact keeps_pure _ _

/-- A crash in the middle of a call leaves the resources as before it or as after it. -/
theorem atomic_method (draw : Draw) (call : ProviderCall) (db : FakeDatabase) :
    (method call).Atomic (reply draw) resources db := by
  cases call with
  | selectPlan requirements => exact (keeps_selectPlan requirements db).atomic
  | observe hostId => exact (keeps_observe hostId db).atomic
  | create hostId planId => exact atomic_create hostId planId db
  | delete hostId => exact atomic_delete hostId db

/-! ## The catalog -/

/-- No statement of the fake provider changes the catalog. -/
theorem reply_plans (draw : Draw) (db : FakeDatabase) (statement : Statement) :
    (reply draw db statement).2.plans = db.plans := by
  cases statement with
  | consumeFault operation =>
    obtain ⟨db', hconsume, hspent⟩ := perform_consumeFault operation db
    show ((consumeFault operation).perform db).2.plans = db.plans
    rw [hconsume]
    exact hspent.plans
  | insertResource row =>
    show (written db (db.insertResource row)).2.plans = db.plans
    cases hinsert : db.insertResource row with
    | error text => rfl
    | ok db' => exact (FakeDatabase.store_eq_ok.mp hinsert).1
  | deleteResource hostId =>
    show (written db (db.deleteResource hostId)).2.plans = db.plans
    cases hdelete : db.deleteResource hostId with
    | error text => rfl
    | ok db' => exact (FakeDatabase.store_eq_ok.mp hdelete).1
  | _ => rfl

/-- Neither does a call. -/
theorem keeps_plans (draw : Draw) (call : ProviderCall) (db : FakeDatabase) :
    (method call).Keeps (reply draw) FakeDatabase.plans db :=
  Program.keeps_of_handle (reply_plans draw) _ _

/-! ## What happens to the resources -/

/-- What a call may do to the resources: nothing, or what its name says. -/
inductive ResourceChange (draw : Draw) (rows : List ProviderResourceRow) :
    Option ProviderCall → List ProviderResourceRow → Prop where
  | kept {call} : ResourceChange draw rows call rows
  | created {hostId : HostId} {planId : String} : (∀ row ∈ rows, row.hostId ≠ hostId) →
      ResourceChange draw rows (some (.create hostId planId))
        (rows ++ [newResourceRow draw hostId planId])
  | deleted {hostId : HostId} : ResourceChange draw rows (some (.delete hostId))
      (rows.filter fun row => row.hostId ≠ hostId)

/-- Nothing happens to the resources outside a call. -/
theorem ResourceChange.eq_of_none {rows rows' : List ProviderResourceRow}
    (h : ResourceChange draw rows none rows') : rows' = rows := by
  cases h
  rfl

theorem resourceChange_perform (draw : Draw) (call : ProviderCall) (db : FakeDatabase) :
    ResourceChange draw db.providerResources (some call)
      (perform draw call db).2.providerResources := by
  have hkept : ∀ {rows}, rows = db.providerResources →
      ResourceChange draw db.providerResources (some call) rows := by
    rintro rows rfl
    exact .kept
  cases call with
  | selectPlan requirements =>
    exact hkept (congrArg (·.providerResources) (select_exit draw requirements db).2)
  | observe hostId => exact hkept (keeps_observe hostId db).2
  | create hostId planId =>
    have hexit := create_exit draw hostId planId db
    change CreateExit draw hostId planId db (perform draw (.create hostId planId) db).1
      (perform draw (.create hostId planId) db).2 at hexit
    generalize perform draw (.create hostId planId) db = answered at hexit
    obtain ⟨answer, db'⟩ := answered
    cases hexit with
    | definitiveFault _ hspent => exact hkept hspent.providerResources
    | transientFault _ _ hspent => exact hkept hspent.providerResources
    | otherPlan _ _ hspent => exact hkept hspent.providerResources
    | existing _ _ hspent => exact hkept hspent.providerResources
    | unknownPlan _ _ hspent => exact hkept hspent.providerResources
    | insertFails _ _ hspent => exact hkept hspent.providerResources
    | inserted _ _ hspent hrow _ hinsert =>
      obtain ⟨-, hresources, -⟩ := FakeDatabase.store_eq_ok.mp hinsert
      rw [hresources, hspent.providerResources]
      exact .created (FakeDatabase.resourceRow_eq_none.mp hrow)
  | delete hostId =>
    have hexit := delete_exit draw hostId db
    change DeleteExit hostId db (perform draw (.delete hostId) db).1
      (perform draw (.delete hostId) db).2 at hexit
    generalize perform draw (.delete hostId) db = answered at hexit
    obtain ⟨answer, db'⟩ := answered
    cases hexit with
    | fault _ hspent => exact hkept hspent.providerResources
    | deleted _ hspent hdelete =>
      obtain ⟨-, hresources, -⟩ := FakeDatabase.store_eq_ok.mp hdelete
      rw [hresources, hspent.providerResources]
      exact .deleted

/-- Seeding the catalog does not touch the resources. -/
theorem seedCatalog_resources (h : seedCatalog db = .ok db') :
    db'.providerResources = db.providerResources := by
  unfold seedCatalog at h
  generalize seedPlans = plans at h
  induction plans generalizing db with
  | nil =>
    cases h
    rfl
  | cons plan plans ih =>
    rw [List.foldlM_cons] at h
    cases hupsert : db.upsertPlan plan with
    | error text =>
      rw [hupsert] at h
      cases h
    | ok middle =>
      rw [hupsert] at h
      rw [ih h]
      exact (FakeDatabase.store_eq_ok.mp hupsert).2.1

theorem resourceChange_interrupted (draw : Draw) (statements : Nat) (db : FakeDatabase)
    (pending : Option ProviderCall) :
    ResourceChange draw db.providerResources pending
      (interrupted draw statements db pending).providerResources := by
  cases pending with
  | none => exact .kept
  | some call =>
    show ResourceChange draw (resources db) (some call)
      (resources ((method call).cutShort (reply draw) statements db))
    rcases atomic_method draw call db statements with hbefore | hafter
    · rw [hbefore]
      exact .kept
    · rw [hafter]
      exact resourceChange_perform draw call db

end FakeProvider

/-- A call, answered or cut short, does to the resources what a call may do. -/
theorem fakeProvider_answers {state state' : FakeState} {call : ProviderCall}
    {answer : ProviderAnswer call} (h : fakeProvider.answers state call answer state') :
    ∃ draw : Draw, draw.uuid ∉ state.drawn ∧ state'.drawn = draw.uuid :: state.drawn ∧
      FakeProvider.ResourceChange draw state.database.providerResources (some call)
        state'.database.providerResources := by
  obtain ⟨draw, hfresh, hdrawn, hperform⟩ := h
  have hchange := FakeProvider.resourceChange_perform draw call state.database
  rw [hperform] at hchange
  exact ⟨draw, hfresh, hdrawn, hchange⟩

theorem fakeProvider_crash {state state' : FakeState} {pending : Option ProviderCall}
    (h : fakeProvider.crash state pending state') :
    ∃ draw : Draw, draw.uuid ∉ state.drawn ∧ state'.drawn = draw.uuid :: state.drawn ∧
      FakeProvider.ResourceChange draw state.database.providerResources pending
        state'.database.providerResources := by
  obtain ⟨draw, statements, hfresh, hdrawn, hseed⟩ := h
  refine ⟨draw, hfresh, hdrawn, ?_⟩
  rw [FakeProvider.seedCatalog_resources hseed]
  exact FakeProvider.resourceChange_interrupted draw statements state.database pending

end ControlPlane
