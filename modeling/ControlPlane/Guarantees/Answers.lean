import ControlPlane.Provider.FakeSpecs

/-!
# The provider's answer matches its effect

An error of the fake provider means that nothing happened, an unknown outcome means that
everything did, and what happened can be observed. This is what the recovery of the controller
rests on.
-/

namespace ControlPlane

namespace FakeProvider

variable {draw : Draw} {db db' middle : FakeDatabase} {hostId : HostId} {planId : String}

/-- The rows of `provider_resources` of a Host. -/
def ofHost (db : FakeDatabase) (hostId : HostId) : List ProviderResourceRow :=
  db.providerResources.filter fun row => row.hostId = hostId

/-- The rows of `provider_resources` of every other Host. -/
def ofOthers (db : FakeDatabase) (hostId : HostId) : List ProviderResourceRow :=
  db.providerResources.filter fun row => row.hostId ≠ hostId

/-- A counter is as before, or was positive and went down by one. -/
def Counted (db db' : FakeDatabase) : Prop :=
  ∀ operation, db'.remaining operation = db.remaining operation ∨
    0 < (db.remaining operation).toInt ∧
      (db'.remaining operation).toInt = (db.remaining operation).toInt - 1

theorem Spent.counted_of_faults {operations : List String} (h : Spent operations db middle)
    (hfaults : db'.faults = middle.faults) : Counted db db' := by
  intro operation
  have hsame : db'.remaining operation = middle.remaining operation := by
    unfold FakeDatabase.remaining
    rw [hfaults]
  rw [hsame]
  exact h.counter operation

theorem Spent.counted {operations : List String} (h : Spent operations db db') : Counted db db' :=
  h.counted_of_faults rfl

/-- The row of a Host that has one is its only row. -/
theorem ofHost_of_row {row : ProviderResourceRow} (h : db.resourceRow hostId = some row) :
    ofHost db hostId = [row] := by
  obtain ⟨hmem, hhost⟩ := FakeDatabase.resourceRow_eq_some.mp h
  have hcount := Keyed.countP_key_eq_one db.schema.hostIds hmem hhost
  rw [List.countP_eq_length_filter] at hcount
  obtain ⟨only, honly⟩ := List.length_eq_one_iff.mp hcount
  have hin : row ∈ [only] := by
    rw [← honly]
    exact List.mem_filter.mpr ⟨hmem, decide_eq_true hhost⟩
  rw [List.mem_singleton.mp hin]
  exact honly

theorem ofHost_of_none (h : db.resourceRow hostId = none) : ofHost db hostId = [] := by
  rw [ofHost, List.filter_eq_nil_iff]
  intro row hmem
  simpa using FakeDatabase.resourceRow_eq_none.mp h row hmem

/-! ## One method at a time -/

/-- A `create` that fails leaves the resources alone. -/
theorem CreateExit.unchanged {error : ProviderError}
    (h : CreateExit draw hostId planId db (.error error) db') :
    db'.providerResources = db.providerResources := by
  cases h with
  | definitiveFault _ hspent => exact hspent.providerResources
  | transientFault _ _ hspent => exact hspent.providerResources
  | otherPlan _ _ hspent => exact hspent.providerResources
  | unknownPlan _ _ hspent => exact hspent.providerResources
  | insertFails _ _ hspent => exact hspent.providerResources

/-- A `create` that succeeds, or whose outcome is unknown, leaves the Host with one resource of
    the plan. -/
theorem CreateExit.stored {outcome : CreateOutcome}
    (h : CreateExit draw hostId planId db (.ok outcome) db') :
    (∃ row, ofHost db' hostId = [row] ∧ row.planId = planId ∧
        ∀ resource, outcome = .created resource → resourceFromRow row = .ok resource) ∧
      ofOthers db' hostId = ofOthers db hostId := by
  generalize hanswer : Except.ok outcome = answer at h
  cases h with
  | @existing _ row resource _ _ hspent hrow hplan hdecode =>
    cases hanswer
    refine ⟨⟨row, ?_, hplan, fun found heq => ?_⟩, ?_⟩
    · rw [ofHost, hspent.providerResources]
      exact ofHost_of_row hrow
    · cases heq
      exact hdecode
    · rw [ofOthers, hspent.providerResources, ofOthers]
  | inserted _ _ hspent hrow _ hinsert =>
    obtain ⟨-, hresources, -⟩ := FakeDatabase.store_eq_ok.mp hinsert
    refine ⟨⟨newResourceRow draw hostId planId, ?_, rfl, fun found heq => ?_⟩, ?_⟩
    · rw [ofHost, hresources, hspent.providerResources, List.filter_append,
        show db.providerResources.filter (fun row => decide (row.hostId = hostId)) = [] from
          ofHost_of_none hrow]
      simp [newResourceRow]
    · rw [heq] at hanswer
      split at hanswer
      · cases hanswer
      · cases hanswer
        exact resourceFromRow_newResourceRow draw hostId planId
    · rw [ofOthers, hresources, hspent.providerResources, List.filter_append, ofOthers]
      simp [newResourceRow]
  | _ => cases hanswer

/-- Without a fault, a `create` for a Host that has a resource inserts nothing: it finds the
    resource again, or rejects another plan. -/
theorem CreateExit.rediscovered {answer : Except ProviderError CreateOutcome}
    {row : ProviderResourceRow} (h : CreateExit draw hostId planId db answer db')
    (hdefinitive : db.remaining faultCreateDefinitive = 0)
    (htransient : db.remaining faultCreateTransient = 0)
    (hrow : db.resourceRow hostId = some row) :
    db'.providerResources = db.providerResources ∧
      (row.planId = planId →
        ∃ resource, resourceFromRow row = .ok resource ∧ answer = .ok (.created resource)) ∧
      (row.planId ≠ planId → ∃ message, answer = .error (.definitive message)) := by
  cases h with
  | definitiveFault hfault => exact absurd hdefinitive hfault
  | transientFault _ hfault => exact absurd htransient hfault
  | otherPlan _ _ hspent hfound hplan =>
    rw [hrow] at hfound
    cases hfound
    exact ⟨hspent.providerResources, fun heq => absurd heq hplan, fun _ => ⟨_, rfl⟩⟩
  | existing _ _ hspent hfound hplan hdecode =>
    rw [hrow] at hfound
    cases hfound
    exact ⟨hspent.providerResources, fun _ => ⟨_, hdecode, rfl⟩, fun hne => absurd hplan hne⟩
  | unknownPlan _ _ _ hnone | insertFails _ _ _ hnone | inserted _ _ _ hnone =>
    rw [hrow] at hnone
    cases hnone

theorem CreateExit.counted {answer : Except ProviderError CreateOutcome}
    (h : CreateExit draw hostId planId db answer db') : Counted db db' := by
  cases h with
  | definitiveFault _ hspent => exact hspent.counted
  | transientFault _ _ hspent => exact hspent.counted
  | otherPlan _ _ hspent => exact hspent.counted
  | existing _ _ hspent => exact hspent.counted
  | unknownPlan _ _ hspent => exact hspent.counted
  | insertFails _ _ hspent => exact hspent.counted
  | inserted _ _ hspent _ _ hinsert =>
    exact hspent.counted_of_faults (FakeDatabase.store_eq_ok.mp hinsert).2.2

/-- A `delete` that fails leaves the resources alone. -/
theorem DeleteExit.unchanged {error : ProviderError} (h : DeleteExit hostId db (.error error) db') :
    db'.providerResources = db.providerResources := by
  cases h with
  | fault _ hspent => exact hspent.providerResources

/-- A `delete` that succeeds, or whose outcome is unknown, leaves no resource of the Host. -/
theorem DeleteExit.removed {outcome : DeleteOutcome} (h : DeleteExit hostId db (.ok outcome) db') :
    ofHost db' hostId = [] ∧ ofOthers db' hostId = ofOthers db hostId := by
  generalize hanswer : Except.ok outcome = answer at h
  cases h with
  | fault => cases hanswer
  | deleted _ hspent hdelete =>
    obtain ⟨-, hresources, -⟩ := FakeDatabase.store_eq_ok.mp hdelete
    rw [hspent.providerResources] at hresources
    constructor
    · rw [ofHost, hresources, List.filter_filter, List.filter_eq_nil_iff]
      simp
    · rw [ofOthers, hresources, List.filter_filter, ofOthers]
      simp

theorem DeleteExit.counted {answer : Except ProviderError DeleteOutcome}
    (h : DeleteExit hostId db answer db') : Counted db db' := by
  cases h with
  | fault _ hspent => exact hspent.counted
  | deleted _ hspent hdelete =>
    exact hspent.counted_of_faults (FakeDatabase.store_eq_ok.mp hdelete).2.2

/-- An `observe` that succeeds tells what is stored. -/
theorem ObserveExit.truthful {observation : ProviderObservation}
    (h : ObserveExit hostId db (.ok observation) db') (resource : ProviderResource) :
    observation = .present resource ↔ Stores db hostId resource := by
  cases h with
  | absent _ _ hrow =>
    constructor
    · intro h
      cases h
    · rintro ⟨row, hmem, hhost, -⟩
      exact absurd hhost (FakeDatabase.resourceRow_eq_none.mp hrow row hmem)
  | @present _ row found _ _ hrow hdecode =>
    have hstores : Stores db hostId found := by
      obtain ⟨hmem, hhost⟩ := FakeDatabase.resourceRow_eq_some.mp hrow
      exact ⟨row, hmem, hhost, hdecode⟩
    constructor
    · intro h
      cases h
      exact hstores
    · intro h
      rw [hstores.unique h]

theorem perform_counted (draw : Draw) (call : ProviderCall) (db : FakeDatabase) :
    Counted db (perform draw call db).2 := by
  cases call with
  | selectPlan requirements =>
    have hsame : (perform draw (.selectPlan requirements) db).2 = db :=
      (select_exit draw requirements db).2
    rw [hsame]
    exact (Spent.refl db).counted
  | observe hostId => exact (observe_exit draw hostId db).spent.counted
  | create hostId planId => exact (create_exit draw hostId planId db).counted
  | delete hostId => exact (delete_exit draw hostId db).counted

/-! ## Every sequence of calls -/

/-- The database after a sequence of calls. -/
def afterCalls (calls : List (Draw × ProviderCall)) (db : FakeDatabase) : FakeDatabase :=
  calls.foldl (fun db call => (perform call.1 call.2 db).2) db

/-- After any sequence of calls, from any stored state: a call of `create` or `delete` that
    returns an error has changed no resource; any other answer of `create` means that the Host has
    exactly one resource, with the plan asked for and as reported, and any other answer of
    `delete` that it has none, and other Hosts keep theirs; without a fault `create` finds an
    existing resource again or rejects another plan; `observe` changes nothing and tells exactly
    what is stored; and a counter goes down only by one and only if it was positive. -/
theorem answers_match_effects (start : FakeDatabase) (calls : List (Draw × ProviderCall))
    (draw : Draw) :
    let db := afterCalls calls start
    (∀ hostId planId answer db', perform draw (.create hostId planId) db = (answer, db') →
      (∀ error, answer = .error error → db'.providerResources = db.providerResources) ∧
      (∀ outcome, answer = .ok outcome →
        (∃ row, ofHost db' hostId = [row] ∧ row.planId = planId ∧
          ∀ resource, outcome = .created resource → resourceFromRow row = .ok resource) ∧
        ofOthers db' hostId = ofOthers db hostId) ∧
      (db.remaining faultCreateDefinitive = 0 → db.remaining faultCreateTransient = 0 →
        ∀ row ∈ db.providerResources, row.hostId = hostId →
          db'.providerResources = db.providerResources ∧
          (row.planId = planId →
            ∃ resource, resourceFromRow row = .ok resource ∧ answer = .ok (.created resource)) ∧
          (row.planId ≠ planId → ∃ message, answer = .error (.definitive message)))) ∧
    (∀ hostId answer db', perform draw (.delete hostId) db = (answer, db') →
      (∀ error, answer = .error error → db'.providerResources = db.providerResources) ∧
      (∀ outcome, answer = .ok outcome →
        ofHost db' hostId = [] ∧ ofOthers db' hostId = ofOthers db hostId)) ∧
    (∀ hostId answer db', perform draw (.observe hostId) db = (answer, db') →
      db'.providerResources = db.providerResources ∧
      ∀ observation, answer = .ok observation →
        ∀ resource, observation = .present resource ↔ Stores db hostId resource) ∧
    (∀ call db', db' = (perform draw call db).2 → ∀ operation,
      0 ≤ db'.remaining operation ∧
      (db'.remaining operation = db.remaining operation ∨
        0 < (db.remaining operation).toInt ∧
          (db'.remaining operation).toInt = (db.remaining operation).toInt - 1)) := by
  intro db
  refine ⟨fun hostId planId answer db' hperform => ?_, fun hostId answer db' hperform => ?_,
    fun hostId answer db' hperform => ?_, fun call db' hperform operation => ?_⟩
  · have hexit : CreateExit draw hostId planId db answer db' := by
      have hexit := create_exit draw hostId planId db
      change CreateExit draw hostId planId db (perform draw (.create hostId planId) db).1
        (perform draw (.create hostId planId) db).2 at hexit
      rw [hperform] at hexit
      exact hexit
    refine ⟨?_, ?_, fun hdefinitive htransient row hmem hhost => ?_⟩
    · rintro error rfl
      exact hexit.unchanged
    · rintro outcome rfl
      exact hexit.stored
    · exact hexit.rediscovered hdefinitive htransient
        (FakeDatabase.resourceRow_eq_some.mpr ⟨hmem, hhost⟩)
  · have hexit : DeleteExit hostId db answer db' := by
      have hexit := delete_exit draw hostId db
      change DeleteExit hostId db (perform draw (.delete hostId) db).1
        (perform draw (.delete hostId) db).2 at hexit
      rw [hperform] at hexit
      exact hexit
    constructor
    · rintro error rfl
      exact hexit.unchanged
    · rintro outcome rfl
      exact hexit.removed
  · have hexit : ObserveExit hostId db answer db' := by
      have hexit := observe_exit draw hostId db
      change ObserveExit hostId db (perform draw (.observe hostId) db).1
        (perform draw (.observe hostId) db).2 at hexit
      rw [hperform] at hexit
      exact hexit
    refine ⟨hexit.spent.providerResources, ?_⟩
    rintro observation rfl
    exact hexit.truthful
  · rw [hperform]
    exact ⟨FakeDatabase.remaining_nonneg _ _, perform_counted draw call db operation⟩

end FakeProvider

end ControlPlane
