import ControlPlane.Provider.Fake

/-!
# What the methods of the fake provider do

One relation a method: the exits it has, each with what it consumed, what it changed and what it
answers. A method takes the exit its relation allows, and later proofs go by cases on the exits.
-/

namespace ControlPlane

open Interaction Interaction.Fallible

namespace FakeProvider

variable {draw : Draw} {db db' middle : FakeDatabase} {hostId : HostId} {planId : String}

/-! ## Faults -/

/-- The faults of `operations` have been asked for, and nothing else was done. -/
structure Spent (operations : List String) (db db' : FakeDatabase) : Prop where
  plans : db'.plans = db.plans
  providerResources : db'.providerResources = db.providerResources
  remaining : ∀ operation, db'.remaining operation =
    if operation ∈ operations ∧ db.remaining operation ≠ 0 then db.remaining operation - 1
    else db.remaining operation

theorem Spent.refl (db : FakeDatabase) : Spent [] db db :=
  ⟨rfl, rfl, fun _ => by simp⟩

/-- A counter that was not asked for is as before. -/
theorem Spent.remaining_of_notMem {operations : List String} {operation : String}
    (h : Spent operations db db') (hmem : operation ∉ operations) :
    db'.remaining operation = db.remaining operation := by
  rw [h.remaining, if_neg fun hconsulted => hmem hconsulted.1]

theorem Spent.resourceRow {operations : List String} (h : Spent operations db db')
    (hostId : HostId) : db'.resourceRow hostId = db.resourceRow hostId := by
  unfold FakeDatabase.resourceRow
  rw [h.providerResources]

theorem Spent.countEnabled {operations : List String} (h : Spent operations db db')
    (planId : String) : db'.countEnabled planId = db.countEnabled planId := by
  unfold FakeDatabase.countEnabled
  rw [h.plans]

/-- `consume_fault` never fails: it says whether the counter was positive, and took it down. -/
theorem perform_consumeFault (operation : String) (db : FakeDatabase) :
    ∃ db', (consumeFault operation).perform db = (.ok (decide (db.remaining operation ≠ 0)), db') ∧
      Spent [operation] db db' := by
  have hrun : (consumeFault operation).perform db = Session.settle db
      (if db.remaining operation = 0 then .ok (false, db)
        else ((db.decrement operation).mapError .transient).map fun db' => (true, db')) := by
    apply Session.perform_transaction
    apply Session.commits_query
    split
    · exact Session.commits_pure _
    · have hoperation : ((db.decrement operation).mapError ProviderError.transient).map
          (fun db' => (true, db')) =
          (((db.decrement operation).mapError .transient).map fun db' => ((), db')) >>=
            fun answer => pure (true, answer.2) := by
        cases db.decrement operation <;> rfl
      rw [hoperation]
      exact Session.commits_execute fun _ _ _ => Session.commits_pure _
  by_cases hzero : db.remaining operation = 0
  · refine ⟨db, ?_, rfl, rfl, fun other => ?_⟩
    · rw [hrun, if_pos hzero, hzero]
      rfl
    · rw [if_neg]
      rintro ⟨hmem, hne⟩
      rw [List.mem_singleton.mp hmem] at hne
      exact hne hzero
  · obtain ⟨db', hdecrement⟩ := FakeDatabase.decrement_succeeds hzero
    obtain ⟨hplans, hresources, -⟩ := FakeDatabase.store_eq_ok.mp hdecrement
    refine ⟨db', ?_, hplans, hresources, fun other => ?_⟩
    · rw [hrun, if_neg hzero, hdecrement]
      simp only [ne_eq, hzero, not_false_eq_true, decide_true]
      rfl
    · rw [FakeDatabase.remaining_decrement hdecrement]
      by_cases heq : other = operation
      · subst heq
        have hrow : ∃ row ∈ db.faults, row.operation = other := by
          by_contra hnone
          have hfind : db.faults.find? (fun row => decide (row.operation = other)) = none :=
            Keyed.find?_eq_none_iff.mpr fun row hmem heq => hnone ⟨row, hmem, heq⟩
          apply hzero
          unfold FakeDatabase.remaining
          rw [hfind]
          rfl
        rw [if_pos ⟨rfl, hrow⟩, if_pos ⟨List.mem_singleton.mpr rfl, hzero⟩]
      · rw [if_neg fun h => heq h.1, if_neg fun h => heq (List.mem_singleton.mp h.1)]

theorem evaluate_faultFires (draw : Draw) (operation : String) (db : FakeDatabase) :
    ∃ db', (faultFires operation).run.evaluate (reply draw) db =
        (.ok (decide (db.remaining operation ≠ 0)), db') ∧ Spent [operation] db db' :=
  perform_consumeFault operation db

/-- Asking for one more fault. -/
theorem Spent.evaluate_faultFires {operations : List String} (h : Spent operations db db')
    (draw : Draw) (operation : String) (hmem : operation ∉ operations) :
    ∃ db'', (faultFires operation).run.evaluate (reply draw) db' =
        (.ok (decide (db.remaining operation ≠ 0)), db'') ∧
      Spent (operation :: operations) db db'' := by
  obtain ⟨db'', hfires, hspent⟩ := FakeProvider.evaluate_faultFires draw operation db'
  rw [h.remaining_of_notMem hmem] at hfires
  refine ⟨db'', hfires, hspent.plans.trans h.plans,
    hspent.providerResources.trans h.providerResources, fun other => ?_⟩
  rw [hspent.remaining]
  by_cases heq : other = operation
  · subst heq
    rw [h.remaining_of_notMem hmem]
    simp
  · rw [h.remaining]
    simp [heq]

/-- No counter is ever negative, and one that changed was positive and went down by one. -/
theorem Spent.counter {operations : List String} (h : Spent operations db db')
    (operation : String) :
    db'.remaining operation = db.remaining operation ∨
      0 < (db.remaining operation).toInt ∧
        (db'.remaining operation).toInt = (db.remaining operation).toInt - 1 := by
  rw [h.remaining]
  split
  · rename_i hconsulted
    have hnonneg := db.remaining_nonneg operation
    have hpred := FakeDatabase.nonneg_pred hnonneg hconsulted.2
    have hpos := Int64.le_iff_toInt_le.mp hpred.1
    have hzero : (0 : Int64).toInt = 0 := rfl
    rw [hzero, hpred.2] at hpos
    exact .inr ⟨by omega, hpred.2⟩
  · exact .inl rfl

/-! ## Stored resources -/

theorem lifecycleFromDb_of_mem {value : String}
    (h : value ∈ ["provisioning", "ready", "deleting"]) :
    ∃ lifecycle, lifecycleFromDb value = .ok lifecycle := by
  simp only [List.mem_cons, List.not_mem_nil, or_false] at h
  rcases h with rfl | rfl | rfl
  · exact ⟨.provisioning, rfl⟩
  · exact ⟨.ready, rfl⟩
  · exact ⟨.deleting, rfl⟩

/-- Every stored row decodes. -/
theorem resourceFromRow_of_stored {row : ProviderResourceRow}
    (hmem : row ∈ db.providerResources) : ∃ resource, resourceFromRow row = .ok resource := by
  obtain ⟨lifecycle, hlifecycle⟩ := lifecycleFromDb_of_mem (db.schema.lifecycles row hmem)
  refine ⟨{ id := row.id, hostId := row.hostId, lifecycle }, ?_⟩
  unfold resourceFromRow
  rw [hlifecycle]
  rfl

theorem resourceFromRow_eq_ok {row : ProviderResourceRow} {resource : ProviderResource}
    (h : resourceFromRow row = .ok resource) :
    resource.id = row.id ∧ resource.hostId = row.hostId ∧
      lifecycleFromDb row.lifecycle = .ok resource.lifecycle := by
  unfold resourceFromRow at h
  cases hlifecycle : lifecycleFromDb row.lifecycle with
  | error error =>
    rw [hlifecycle] at h
    cases h
  | ok lifecycle =>
    rw [hlifecycle] at h
    cases h
    exact ⟨rfl, rfl, rfl⟩

/-- `resource` is what is stored for `hostId`. -/
def Stores (db : FakeDatabase) (hostId : HostId) (resource : ProviderResource) : Prop :=
  ∃ row ∈ db.providerResources, row.hostId = hostId ∧ resourceFromRow row = .ok resource

theorem Stores.unique {first second : ProviderResource} (hfirst : Stores db hostId first)
    (hsecond : Stores db hostId second) : first = second := by
  obtain ⟨row, hmem, hhost, hdecode⟩ := hfirst
  obtain ⟨row', hmem', hhost', hdecode'⟩ := hsecond
  rw [List.inj_on_of_nodup_map db.schema.hostIds hmem' hmem (hhost'.trans hhost.symm),
    hdecode] at hdecode'
  exact Except.ok.inj hdecode'

/-- `resource_by_host` reads what is stored. -/
theorem evaluate_resourceByHost (draw : Draw) (db : FakeDatabase) (hostId : HostId) :
    (db.resourceRow hostId = none ∧
        (resourceByHost hostId).run.evaluate (reply draw) db = (.ok none, db)) ∨
      ∃ row resource, db.resourceRow hostId = some row ∧ resourceFromRow row = .ok resource ∧
        (resourceByHost hostId).run.evaluate (reply draw) db = (.ok (some resource), db) := by
  have hrun : (resourceByHost hostId).run.evaluate (reply draw) db =
      match db.resourceRow hostId with
      | none => (.ok none, db)
      | some row => ((resourceFromRow row).map some, db) := by
    unfold resourceByHost
    rw [evaluate_bind_ok (db.resourceRow hostId) db rfl]
    cases db.resourceRow hostId with
    | none => rfl
    | some row =>
      show (attempt (.done (resourceFromRow row)) >>= _).run.evaluate (reply draw) db =
        ((resourceFromRow row).map some, db)
      cases resourceFromRow row <;> rfl
  cases hrow : db.resourceRow hostId with
  | none =>
    rw [hrow] at hrun
    exact .inl ⟨rfl, hrun⟩
  | some row =>
    have hmem := (FakeDatabase.resourceRow_eq_some.mp hrow).1
    obtain ⟨resource, hdecode⟩ := resourceFromRow_of_stored hmem
    rw [hrow] at hrun
    simp only [hdecode] at hrun
    exact .inr ⟨row, resource, rfl, hdecode, hrun⟩

/-! ## Plans -/

/-- The plan is enabled and large enough. -/
def Offers (row : PlanRow) (requirements : HostResources) : Prop :=
  row.enabled = 1 ∧ (requirements.vcpus.toNat : Int) ≤ row.vcpus.toInt ∧
    (requirements.memoryBytes.toNat : Int) ≤ row.memoryBytes.toInt ∧
    (requirements.storageBytes.toNat : Int) ≤ row.storageBytes.toInt

instance (row : PlanRow) (requirements : HostResources) : Decidable (Offers row requirements) :=
  inferInstanceAs (Decidable (_ ∧ _))

/-- The requirements are in the range of an `INTEGER` column. -/
def InRange (requirements : HostResources) : Prop :=
  (requirements.memoryBytes.toNat : Int) ≤ Int64.maxValue.toInt ∧
    (requirements.storageBytes.toNat : Int) ≤ Int64.maxValue.toInt

/-- The plan says what the row says. -/
structure Lists (row : PlanRow) (plan : Plan) : Prop where
  id : plan.id = row.id
  vcpus : (plan.resources.vcpus.toNat : Int) = row.vcpus.toInt
  memoryBytes : (plan.resources.memoryBytes.toNat : Int) = row.memoryBytes.toInt
  storageBytes : (plan.resources.storageBytes.toNat : Int) = row.storageBytes.toInt

theorem maxValue_eq : Int64.maxValue.toInt = 2 ^ 63 - 1 := rfl

theorem requirement_eq_ok {value : UInt64} {message : String} {bound : Int64}
    (h : requirement value message = .ok bound) :
    (value.toNat : Int) ≤ Int64.maxValue.toInt ∧ bound.toInt = value.toNat := by
  unfold requirement at h
  split at h
  · rename_i hlt
    cases h
    rw [maxValue_eq]
    exact ⟨by omega, Int64.toInt_ofNat_of_lt hlt⟩
  · cases h

theorem requirement_eq_error {value : UInt64} {message : String} {error : ProviderError}
    (h : requirement value message = .error error) :
    ¬(value.toNat : Int) ≤ Int64.maxValue.toInt ∧ error = .definitive message := by
  unfold requirement at h
  split at h
  · cases h
  · rename_i hlt
    cases h
    rw [maxValue_eq]
    exact ⟨by omega, rfl⟩

theorem u32TryFrom_eq_ok {column : Int64} {value : UInt32} (h : u32TryFrom column = .ok value) :
    (value.toNat : Int) = column.toInt := by
  unfold u32TryFrom at h
  split at h
  · rename_i hrange
    cases h
    have hsize : column.toInt.toNat < UInt32.size := by
      unfold UInt32.size
      omega
    rw [UInt32.toNat_ofNat_of_lt' hsize]
    omega
  · cases h

theorem u64TryFrom_eq_ok {column : Int64} {value : UInt64} (h : u64TryFrom column = .ok value) :
    (value.toNat : Int) = column.toInt := by
  unfold u64TryFrom at h
  split at h
  · rename_i hnonneg
    cases h
    have hlt := Int64.toInt_lt column
    have hsize : column.toInt.toNat < UInt64.size := by
      unfold UInt64.size
      omega
    rw [UInt64.toNat_ofNat_of_lt' hsize]
    omega
  · cases h

theorem planFromRow_eq_ok {row : PlanRow} {plan : Plan} (h : planFromRow row = .ok plan) :
    Lists row plan := by
  unfold planFromRow at h
  cases hvcpus : u32TryFrom row.vcpus with
  | error error => simp [hvcpus, bind, Except.bind] at h
  | ok vcpus =>
  cases hmemory : u64TryFrom row.memoryBytes with
  | error error => simp [hvcpus, hmemory, bind, Except.bind] at h
  | ok memoryBytes =>
  cases hstorage : u64TryFrom row.storageBytes with
  | error error => simp [hvcpus, hmemory, hstorage, bind, Except.bind] at h
  | ok storageBytes =>
  simp only [hvcpus, hmemory, hstorage, bind, Except.bind, pure, Except.pure,
    Except.ok.injEq] at h
  subst h
  exact ⟨rfl, u32TryFrom_eq_ok hvcpus, u64TryFrom_eq_ok hmemory, u64TryFrom_eq_ok hstorage⟩

theorem toInt_pos {column : Int64} (h : 0 < column) : 0 < column.toInt :=
  Int64.lt_iff_toInt_lt.mp h

/-- A row the schema allows is a plan, if its processors fit a `u32`. -/
theorem planFromRow_succeeds {row : PlanRow} (hchecks : row.Checks)
    (hvcpus : row.vcpus.toInt < 2 ^ 32) : ∃ plan, planFromRow row = .ok plan := by
  obtain ⟨hvcpusPos, hmemory, hstorage, -⟩ := hchecks
  have hvcpusPos := toInt_pos hvcpusPos
  have hmemory := toInt_pos hmemory
  have hstorage := toInt_pos hstorage
  unfold planFromRow u32TryFrom u64TryFrom
  rw [if_pos ⟨by omega, hvcpus⟩, if_pos (by omega), if_pos (by omega)]
  exact ⟨_, rfl⟩

/-- The statement of `select_plan` finds the first plan that offers what is required. -/
theorem cheapestPlan_eq {requirements : HostResources} {memory storage : Int64}
    (hmemory : memory.toInt = requirements.memoryBytes.toNat)
    (hstorage : storage.toInt = requirements.storageBytes.toNat) :
    db.cheapestPlan (fromU32 requirements.vcpus) memory storage =
      Selection.first PlanRow.order (db.plans.filter fun row => Offers row requirements) := by
  have hvcpus : (fromU32 requirements.vcpus).toInt = requirements.vcpus.toNat := by
    have hlt := UInt32.toNat_lt requirements.vcpus
    exact Int64.toInt_ofNat_of_lt (by omega)
  unfold FakeDatabase.cheapestPlan
  congr 1
  apply List.filter_congr
  intro row _
  rw [decide_eq_decide, Int64.le_iff_toInt_le, Int64.le_iff_toInt_le, Int64.le_iff_toInt_le,
    hvcpus, hmemory, hstorage]
  rfl

/-- The exits of `select_plan`. -/
inductive SelectExit (requirements : HostResources) (db : FakeDatabase) :
    Except ProviderError (Option Plan) → Prop where
  | outOfRange {message} : ¬InRange requirements →
      SelectExit requirements db (.error (.definitive message))
  | unsatisfiable : InRange requirements → (∀ row ∈ db.plans, ¬Offers row requirements) →
      SelectExit requirements db (.ok none)
  | unreadable {row error} : InRange requirements →
      Selection.first PlanRow.order (db.plans.filter fun row => Offers row requirements) =
        some row →
      planFromRow row = .error error → SelectExit requirements db (.error error)
  | found {row plan} : InRange requirements →
      Selection.first PlanRow.order (db.plans.filter fun row => Offers row requirements) =
        some row →
      planFromRow row = .ok plan → SelectExit requirements db (.ok (some plan))

/-- `select_plan` takes one of its exits and only reads. -/
theorem select_exit (draw : Draw) (requirements : HostResources) (db : FakeDatabase) :
    SelectExit requirements db ((selectPlan requirements).run.evaluate (reply draw) db).1 ∧
      ((selectPlan requirements).run.evaluate (reply draw) db).2 = db := by
  unfold selectPlan
  cases hmemory : requirement requirements.memoryBytes
      "memory requirement exceeds SQLite range" with
  | error error =>
    obtain ⟨hrange, rfl⟩ := requirement_eq_error hmemory
    exact ⟨.outOfRange fun h => hrange h.1, rfl⟩
  | ok memory =>
    rw [evaluate_bind_ok memory db rfl]
    cases hstorage : requirement requirements.storageBytes
        "storage requirement exceeds SQLite range" with
    | error error =>
      obtain ⟨hrange, rfl⟩ := requirement_eq_error hstorage
      exact ⟨.outOfRange fun h => hrange h.2, rfl⟩
    | ok storage =>
      obtain ⟨hmemoryRange, hmemoryBound⟩ := requirement_eq_ok hmemory
      obtain ⟨hstorageRange, hstorageBound⟩ := requirement_eq_ok hstorage
      have hrange : InRange requirements := ⟨hmemoryRange, hstorageRange⟩
      rw [evaluate_bind_ok storage db rfl,
        evaluate_bind_ok (db.cheapestPlan (fromU32 requirements.vcpus) memory storage) db rfl,
        cheapestPlan_eq hmemoryBound hstorageBound]
      cases hfirst : Selection.first PlanRow.order
          (db.plans.filter fun row => Offers row requirements) with
      | none =>
        refine ⟨.unsatisfiable hrange fun row hmem hoffers => ?_, rfl⟩
        have hempty := Selection.first_eq_none.mp hfirst
        exact of_decide_eq_false (by simpa using List.filter_eq_nil_iff.mp hempty row hmem) hoffers
      | some row =>
        show SelectExit _ _ ((attempt (.done (planFromRow row)) >>= _).run.evaluate _ db).1 ∧
          ((attempt (.done (planFromRow row)) >>= _).run.evaluate _ db).2 = db
        cases hplan : planFromRow row with
        | error error => exact ⟨.unreadable hrange hfirst hplan, rfl⟩
        | ok plan => exact ⟨.found hrange hfirst hplan, rfl⟩

/-! ## The exits of a method -/

/-- The exits of `observe`. -/
inductive ObserveExit (hostId : HostId) (db : FakeDatabase) :
    Except ProviderError ProviderObservation → FakeDatabase → Prop where
  | fault {db' : FakeDatabase} : db.remaining faultObserveTransient ≠ 0 →
      Spent [faultObserveTransient] db db' →
      ObserveExit hostId db (.error (.transient "injected observation failure")) db'
  | absent {db' : FakeDatabase} : db.remaining faultObserveTransient = 0 →
      Spent [faultObserveTransient] db db' → db.resourceRow hostId = none →
      ObserveExit hostId db (.ok .absent) db'
  | present {db' : FakeDatabase} {row resource} : db.remaining faultObserveTransient = 0 →
      Spent [faultObserveTransient] db db' → db.resourceRow hostId = some row →
      resourceFromRow row = .ok resource → ObserveExit hostId db (.ok (.present resource)) db'

theorem observe_exit (draw : Draw) (hostId : HostId) (db : FakeDatabase) :
    ObserveExit hostId db ((observe hostId).run.evaluate (reply draw) db).1
      ((observe hostId).run.evaluate (reply draw) db).2 := by
  obtain ⟨db', hfires, hspent⟩ := evaluate_faultFires draw faultObserveTransient db
  unfold observe
  rw [evaluate_bind_ok _ _ hfires]
  by_cases hfault : db.remaining faultObserveTransient = 0
  · simp only [hfault, ne_eq, not_true_eq_false, decide_false, Bool.false_eq_true, if_false]
    rcases evaluate_resourceByHost draw db' hostId with
      ⟨hrow, hread⟩ | ⟨row, resource, hrow, hdecode, hread⟩
    · rw [evaluate_bind_ok _ _ hread]
      exact .absent hfault hspent (hspent.resourceRow hostId ▸ hrow)
    · rw [evaluate_bind_ok _ _ hread]
      exact .present hfault hspent (hspent.resourceRow hostId ▸ hrow) hdecode
  · simp only [hfault, ne_eq, not_false_eq_true, decide_true, if_true]
    exact .fault hfault hspent

theorem ObserveExit.spent {answer : Except ProviderError ProviderObservation}
    (h : ObserveExit hostId db answer db') : Spent [faultObserveTransient] db db' := by
  cases h with
  | fault _ hspent | absent _ hspent | present _ hspent => exact hspent

/-- The row `create` inserts. -/
def newResourceRow (draw : Draw) (hostId : HostId) (planId : String) : ProviderResourceRow :=
  { id := "fake-" ++ draw.uuid, hostId, planId, lifecycle := "ready", createdAt := draw.now }

/-- The resource `create` reports for it. -/
def newResource (draw : Draw) (hostId : HostId) : ProviderResource :=
  { id := "fake-" ++ draw.uuid, hostId, lifecycle := .ready }

theorem resourceFromRow_newResourceRow (draw : Draw) (hostId : HostId) (planId : String) :
    resourceFromRow (newResourceRow draw hostId planId) = .ok (newResource draw hostId) := rfl

/-- The faults `create` asks for first. -/
def createFaults : List String := [faultCreateTransient, faultCreateDefinitive]

/-- The exits of `create`. -/
inductive CreateExit (draw : Draw) (hostId : HostId) (planId : String) (db : FakeDatabase) :
    Except ProviderError CreateOutcome → FakeDatabase → Prop where
  | definitiveFault {db' : FakeDatabase} : db.remaining faultCreateDefinitive ≠ 0 →
      Spent [faultCreateDefinitive] db db' →
      CreateExit draw hostId planId db
        (.error (.definitive "injected definitive create failure")) db'
  | transientFault {db' : FakeDatabase} : db.remaining faultCreateDefinitive = 0 →
      db.remaining faultCreateTransient ≠ 0 → Spent createFaults db db' →
      CreateExit draw hostId planId db
        (.error (.transient "injected transient create failure")) db'
  | otherPlan {db' : FakeDatabase} {row} : db.remaining faultCreateDefinitive = 0 →
      db.remaining faultCreateTransient = 0 → Spent createFaults db db' →
      db.resourceRow hostId = some row → row.planId ≠ planId →
      CreateExit draw hostId planId db
        (.error (.definitive
          s!"Host {hostId.text} already owns a provider resource with plan {row.planId.quote}, not {planId.quote}"))
        db'
  | existing {db' : FakeDatabase} {row resource} : db.remaining faultCreateDefinitive = 0 →
      db.remaining faultCreateTransient = 0 → Spent createFaults db db' →
      db.resourceRow hostId = some row → row.planId = planId →
      resourceFromRow row = .ok resource →
      CreateExit draw hostId planId db (.ok (.created resource)) db'
  | unknownPlan {db' : FakeDatabase} : db.remaining faultCreateDefinitive = 0 →
      db.remaining faultCreateTransient = 0 → Spent createFaults db db' →
      db.resourceRow hostId = none → db.countEnabled planId ≠ 1 →
      CreateExit draw hostId planId db
        (.error (.definitive s!"unknown or disabled provider plan {planId.quote}")) db'
  | insertFails {db' : FakeDatabase} {text} : db.remaining faultCreateDefinitive = 0 →
      db.remaining faultCreateTransient = 0 →
      Spent (faultCreateResponseLoss :: createFaults) db db' →
      db.resourceRow hostId = none → db.countEnabled planId = 1 →
      db'.insertResource (newResourceRow draw hostId planId) = .error text →
      CreateExit draw hostId planId db (.error (.transient text)) db'
  | inserted {middle db' : FakeDatabase} : db.remaining faultCreateDefinitive = 0 →
      db.remaining faultCreateTransient = 0 →
      Spent (faultCreateResponseLoss :: createFaults) db middle →
      db.resourceRow hostId = none → db.countEnabled planId = 1 →
      middle.insertResource (newResourceRow draw hostId planId) = .ok db' →
      CreateExit draw hostId planId db
        (.ok (if db.remaining faultCreateResponseLoss ≠ 0 then .outcomeUnknown
          else .created (newResource draw hostId))) db'

theorem insertNew_exit (draw : Draw) (hostId : HostId) (planId : String)
    (hdefinitive : db.remaining faultCreateDefinitive = 0)
    (htransient : db.remaining faultCreateTransient = 0) (hspent : Spent createFaults db middle)
    (hrow : db.resourceRow hostId = none) :
    CreateExit draw hostId planId db
      ((insertNew hostId planId).run.evaluate (reply draw) middle).1
      ((insertNew hostId planId).run.evaluate (reply draw) middle).2 := by
  have hcount := hspent.countEnabled planId
  unfold insertNew
  rw [evaluate_bind_ok (middle.countEnabled planId) middle rfl, hcount]
  by_cases hplan : db.countEnabled planId = 1
  · obtain ⟨lost, hfires, hspent'⟩ := hspent.evaluate_faultFires draw
      faultCreateResponseLoss (by decide)
    simp only [hplan, ne_eq, not_true_eq_false, if_false]
    rw [evaluate_bind_ok _ _ hfires, evaluate_bind_ok draw.uuid lost rfl,
      evaluate_bind_ok draw.now lost rfl]
    cases hinsert : lost.insertResource (newResourceRow draw hostId planId) with
    | error text =>
      rw [evaluate_bind_error (.transient text) lost]
      · exact .insertFails hdefinitive htransient hspent' hrow hplan hinsert
      · show written lost (lost.insertResource (newResourceRow draw hostId planId)) = _
        rw [hinsert]
        rfl
    | ok db' =>
      rw [evaluate_bind_ok () db']
      · show CreateExit draw hostId planId db
          (.ok (if decide (db.remaining faultCreateResponseLoss ≠ 0) = true then .outcomeUnknown
            else .created (newResource draw hostId))) db'
        simp only [decide_eq_true_eq]
        exact .inserted hdefinitive htransient hspent' hrow hplan hinsert
      · show written lost (lost.insertResource (newResourceRow draw hostId planId)) = _
        rw [hinsert]
        rfl
  · simp only [hplan, ne_eq, not_false_eq_true, if_true]
    exact .unknownPlan hdefinitive htransient hspent hrow hplan

theorem create_exit (draw : Draw) (hostId : HostId) (planId : String) (db : FakeDatabase) :
    CreateExit draw hostId planId db ((create hostId planId).run.evaluate (reply draw) db).1
      ((create hostId planId).run.evaluate (reply draw) db).2 := by
  obtain ⟨first, hfires, hspent⟩ := evaluate_faultFires draw faultCreateDefinitive db
  unfold create
  rw [evaluate_bind_ok _ _ hfires]
  by_cases hdefinitive : db.remaining faultCreateDefinitive = 0
  · simp only [hdefinitive, ne_eq, not_true_eq_false, decide_false, Bool.false_eq_true, if_false]
    obtain ⟨second, hfires', hspent'⟩ := hspent.evaluate_faultFires draw
      faultCreateTransient (by decide)
    rw [evaluate_bind_ok _ _ hfires']
    by_cases htransient : db.remaining faultCreateTransient = 0
    · simp only [htransient, ne_eq, not_true_eq_false, decide_false, Bool.false_eq_true, if_false]
      rcases evaluate_resourceByHost draw second hostId with
        ⟨hrow, hread⟩ | ⟨row, resource, hrow, hdecode, hread⟩
      · rw [evaluate_bind_ok _ _ hread]
        rw [hspent'.resourceRow hostId] at hrow
        exact insertNew_exit draw hostId planId hdefinitive htransient hspent' hrow
      · rw [evaluate_bind_ok _ _ hread]
        have hplan : (attempt (Program.perform (Statement.selectPlanId hostId))).run.evaluate
            (reply draw) second = (.ok row.planId, second) := by
          show (fetchPlanId second hostId, second) = _
          rw [fetchPlanId, hrow]
        simp only [evaluate_bind_ok _ _ hplan]
        rw [hspent'.resourceRow hostId] at hrow
        by_cases hsame : row.planId = planId
        · simp only [hsame, not_true_eq_false, if_false]
          exact .existing hdefinitive htransient hspent' hrow hsame hdecode
        · simp only [hsame, not_false_eq_true, if_true]
          exact .otherPlan hdefinitive htransient hspent' hrow hsame
    · simp only [htransient, ne_eq, not_false_eq_true, decide_true, if_true]
      exact .transientFault hdefinitive htransient hspent'
  · simp only [hdefinitive, ne_eq, not_false_eq_true, decide_true, if_true]
    exact .definitiveFault hdefinitive hspent

/-- The exits of `delete`. -/
inductive DeleteExit (hostId : HostId) (db : FakeDatabase) :
    Except ProviderError DeleteOutcome → FakeDatabase → Prop where
  | fault {db' : FakeDatabase} : db.remaining faultDeleteTransient ≠ 0 →
      Spent [faultDeleteTransient] db db' →
      DeleteExit hostId db (.error (.transient "injected transient delete failure")) db'
  | deleted {middle db' : FakeDatabase} : db.remaining faultDeleteTransient = 0 →
      Spent [faultDeleteResponseLoss, faultDeleteTransient] db middle →
      middle.deleteResource hostId = .ok db' →
      DeleteExit hostId db
        (.ok (if db.remaining faultDeleteResponseLoss ≠ 0 then .outcomeUnknown else .deleted)) db'

theorem delete_exit (draw : Draw) (hostId : HostId) (db : FakeDatabase) :
    DeleteExit hostId db ((delete hostId).run.evaluate (reply draw) db).1
      ((delete hostId).run.evaluate (reply draw) db).2 := by
  obtain ⟨first, hfires, hspent⟩ := evaluate_faultFires draw faultDeleteTransient db
  unfold delete
  rw [evaluate_bind_ok _ _ hfires]
  by_cases hfault : db.remaining faultDeleteTransient = 0
  · simp only [hfault, ne_eq, not_true_eq_false, decide_false, Bool.false_eq_true, if_false]
    obtain ⟨middle, hfires', hspent'⟩ := hspent.evaluate_faultFires draw
      faultDeleteResponseLoss (by decide)
    obtain ⟨db', hdelete⟩ := middle.deleteResource_succeeds hostId
    rw [evaluate_bind_ok _ _ hfires', evaluate_bind_ok () db']
    · show DeleteExit hostId db
        (.ok (if decide (db.remaining faultDeleteResponseLoss ≠ 0) = true then .outcomeUnknown
          else .deleted)) db'
      simp only [decide_eq_true_eq]
      exact .deleted hfault hspent' hdelete
    · show written middle (middle.deleteResource hostId) = _
      rw [hdelete]
      rfl
  · simp only [hfault, ne_eq, not_false_eq_true, decide_true, if_true]
    exact .fault hfault hspent

end FakeProvider

end ControlPlane
