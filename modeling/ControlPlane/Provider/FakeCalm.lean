import ControlPlane.Guarantees.Plans
import ControlPlane.Provider.FakeModel

/-!
# The fake provider without faults

While no fault is injected every call is answered as it should be: an observation tells what is
stored, a creation creates, a deletion deletes and a selection finds a plan if one fits.
-/

namespace ControlPlane

open Interaction

/-- No fault is injected. -/
def FakeDatabase.Faultless (db : FakeDatabase) : Prop :=
  ∀ operation, db.remaining operation = 0

/-- Every stored resource is ready. -/
def FakeDatabase.AllReady (db : FakeDatabase) : Prop :=
  ∀ row ∈ db.providerResources, row.lifecycle = "ready"

/-- Every stored resource has a name made of a UUID that was drawn. -/
def FakeState.Named (state : FakeState) : Prop :=
  ∀ row ∈ state.database.providerResources, ∃ uuid ∈ state.drawn, row.id = "fake-" ++ uuid

/-- A call that only reads. -/
structure FakeState.Untouched (state state' : FakeState) : Prop where
  providerResources : state'.database.providerResources = state.database.providerResources
  plans : state'.database.plans = state.database.plans
  faultless : state'.database.Faultless
  drawn : state.drawn ⊆ state'.drawn

namespace FakeProvider

variable {db db' : FakeDatabase} {state state' : FakeState} {hostId : HostId} {planId : String}

theorem Spent.faultless {operations : List String} (h : Spent operations db db')
    (hfaultless : db.Faultless) : db'.Faultless := by
  intro operation
  rw [h.remaining, if_neg fun hconsumed => hconsumed.2 (hfaultless operation)]
  exact hfaultless operation

/-- A call that has spent its faults, of which there are none, and did nothing else. -/
theorem Spent.untouched {operations : List String} {draw : Draw}
    (h : Spent operations state.database state'.database) (hfaultless : state.database.Faultless)
    (hdrawn : state'.drawn = draw.uuid :: state.drawn) : state.Untouched state' :=
  ⟨h.providerResources, h.plans, h.faultless hfaultless, hdrawn ▸ List.subset_cons_self _ _⟩

/-- Different UUIDs make different names. -/
theorem fake_inj {uuid uuid' : String} (h : "fake-" ++ uuid = "fake-" ++ uuid') : uuid = uuid' := by
  apply String.toList_inj.mp
  have hlist := congrArg String.toList h
  rw [String.toList_append, String.toList_append] at hlist
  exact List.append_cancel_left hlist

/-- A ready row stands for a ready resource. -/
theorem resourceFromRow_ready {row : ProviderResourceRow} (h : row.lifecycle = "ready") :
    resourceFromRow row = .ok ⟨row.id, row.hostId, .ready⟩ := by
  unfold resourceFromRow
  rw [h]
  rfl

theorem calm_observe {answer : ProviderAnswer (.observe hostId)}
    (h : fakeProvider.answers state (.observe hostId) answer state')
    (hfaultless : state.database.Faultless) (hready : state.database.AllReady) :
    state.Untouched state' ∧
      ((state.database.resourceRow hostId = none ∧ answer = .ok .absent) ∨
        ∃ row, state.database.resourceRow hostId = some row ∧
          answer = .ok (.present ⟨row.id, row.hostId, .ready⟩)) := by
  obtain ⟨draw, -, hdrawn, hperform⟩ := h
  have hexit := observe_exit draw hostId state.database
  change ObserveExit hostId state.database (perform draw (.observe hostId) state.database).1
    (perform draw (.observe hostId) state.database).2 at hexit
  rw [hperform] at hexit
  refine ⟨hexit.spent.untouched hfaultless hdrawn, ?_⟩
  generalize state'.database = db' at hexit
  cases hexit with
  | fault hfault => exact absurd (hfaultless _) hfault
  | absent _ _ hrow => exact .inl ⟨hrow, rfl⟩
  | @present _ row resource _ _ hrow hdecode =>
    have hmem := (FakeDatabase.resourceRow_eq_some.mp hrow).1
    rw [resourceFromRow_ready (hready row hmem)] at hdecode
    cases hdecode
    exact .inr ⟨row, hrow, rfl⟩

theorem calm_delete {answer : ProviderAnswer (.delete hostId)}
    (h : fakeProvider.answers state (.delete hostId) answer state')
    (hfaultless : state.database.Faultless) :
    answer = .ok .deleted ∧ state'.database.plans = state.database.plans ∧
      state'.database.Faultless ∧
      ∀ other, state'.database.resourceRow other =
        if other = hostId then none else state.database.resourceRow other := by
  obtain ⟨draw, -, -, hperform⟩ := h
  have hexit := delete_exit draw hostId state.database
  change DeleteExit hostId state.database (perform draw (.delete hostId) state.database).1
    (perform draw (.delete hostId) state.database).2 at hexit
  rw [hperform] at hexit
  generalize state'.database = db' at hexit ⊢
  cases hexit with
  | fault hfault => exact absurd (hfaultless _) hfault
  | deleted _ hspent hdelete =>
    obtain ⟨hplans, hresources, hfaults⟩ := FakeDatabase.store_eq_ok.mp hdelete
    refine ⟨?_, hplans.trans hspent.plans, fun operation => ?_, fun other => ?_⟩
    · rw [if_neg (not_not.mpr (hfaultless _))]
    · unfold FakeDatabase.remaining
      rw [hfaults]
      exact hspent.faultless hfaultless operation
    · unfold FakeDatabase.resourceRow
      rw [hresources, hspent.providerResources,
        Keyed.find?_filter state.database.schema.hostIds]
      cases hfind : state.database.providerResources.find? fun row =>
          decide (row.hostId = other) with
      | none => simp
      | some row =>
        have hhost : row.hostId = other := by simpa using List.find?_some hfind
        by_cases hother : other = hostId <;> simp [Option.filter, hhost, hother]

theorem calm_create {answer : ProviderAnswer (.create hostId planId)}
    (h : fakeProvider.answers state (.create hostId planId) answer state')
    (hfaultless : state.database.Faultless) (hnamed : state.Named)
    (hnone : state.database.resourceRow hostId = none)
    (hplan : state.database.countEnabled planId = 1) :
    ∃ draw : Draw, draw.uuid ∉ state.drawn ∧ answer = .ok (.created (newResource draw hostId)) ∧
      state'.database.plans = state.database.plans ∧ state'.database.Faultless ∧
      ∀ other, state'.database.resourceRow other =
        if other = hostId then some (newResourceRow draw hostId planId)
        else state.database.resourceRow other := by
  obtain ⟨draw, hfresh, -, hperform⟩ := h
  have hexit := create_exit draw hostId planId state.database
  change CreateExit draw hostId planId state.database
    (perform draw (.create hostId planId) state.database).1
    (perform draw (.create hostId planId) state.database).2 at hexit
  rw [hperform] at hexit
  generalize state'.database = db' at hexit ⊢
  have hunused := FakeDatabase.resourceRow_eq_none.mp hnone
  cases hexit with
  | definitiveFault hfault => exact absurd (hfaultless _) hfault
  | transientFault _ hfault => exact absurd (hfaultless _) hfault
  | otherPlan _ _ _ hrow | existing _ _ _ hrow =>
    rw [hnone] at hrow
    cases hrow
  | unknownPlan _ _ _ _ hunknown => exact absurd hplan hunknown
  | insertFails _ _ hspent _ _ hinsert =>
    have hpos : 0 < state.database.countEnabled planId := by omega
    obtain ⟨plan, hmem, hoffered⟩ := List.countP_pos_iff.mp hpos
    have hid : plan.id = planId := (of_decide_eq_true hoffered).1
    have hsucceeds : ∃ db'', db'.insertResource (newResourceRow draw hostId planId) = .ok db'' := by
      apply FakeDatabase.insertResource_succeeds
      · intro other hother heq
        rw [hspent.providerResources] at hother
        obtain ⟨uuid, huuid, hname⟩ := hnamed other hother
        have hsame := fake_inj (hname.symm.trans heq)
        exact hfresh (hsame ▸ huuid)
      · rw [hspent.providerResources]
        exact hunused
      · rw [hspent.plans]
        exact List.mem_map.mpr ⟨plan, hmem, hid⟩
      · rfl
    obtain ⟨_, hsucceeds⟩ := hsucceeds
    rw [hinsert] at hsucceeds
    cases hsucceeds
  | inserted _ _ hspent _ _ hinsert =>
    obtain ⟨hplans, hresources, hfaults⟩ := FakeDatabase.store_eq_ok.mp hinsert
    refine ⟨draw, hfresh, ?_, hplans.trans hspent.plans, fun operation => ?_, fun other => ?_⟩
    · rw [if_neg (not_not.mpr (hfaultless _))]
    · unfold FakeDatabase.remaining
      rw [hfaults]
      exact hspent.faultless hfaultless operation
    · unfold FakeDatabase.resourceRow
      rw [hresources, hspent.providerResources]
      by_cases hother : other = hostId
      · have habsent : ∀ row ∈ state.database.providerResources,
            row.hostId ≠ (newResourceRow draw hostId planId).hostId := hunused
        rw [if_pos hother, hother]
        exact Keyed.find?_append_self habsent
      · rw [if_neg hother]
        exact Keyed.find?_append_ne (Ne.symm hother)

theorem calm_selectPlan {requirements : HostResources}
    {answer : ProviderAnswer (.selectPlan requirements)}
    (h : fakeProvider.answers state (.selectPlan requirements) answer state')
    (hfaultless : state.database.Faultless) (hprocessors : ProcessorsFit state.database)
    (hrange : InRange requirements) :
    state.Untouched state' ∧
      ((answer = .ok none ∧ ∀ row ∈ state.database.plans, ¬Offers row requirements) ∨
        ∃ row ∈ state.database.plans, ∃ plan, Offers row requirements ∧
          planFromRow row = .ok plan ∧ answer = .ok (some plan)) := by
  obtain ⟨draw, -, hdrawn, hperform⟩ := h
  have hsame : state'.database = state.database := by
    have hreads := (select_exit draw requirements state.database).2
    change (perform draw (.selectPlan requirements) state.database).2 = _ at hreads
    rw [hperform] at hreads
    exact hreads
  refine ⟨⟨by rw [hsame], by rw [hsame], by rw [hsame]; exact hfaultless,
    hdrawn ▸ List.subset_cons_self _ _⟩, ?_⟩
  have hcases := selectPlan_cases draw hprocessors hrange
  rw [hperform] at hcases
  rcases hcases with ⟨hnone, hoffers⟩ | ⟨row, plan, hsome, hplan, hfirst⟩
  · exact .inl ⟨hnone, hoffers⟩
  · obtain ⟨hmem, hoffers⟩ := mem_offering.mp (Selection.mem_of_first hfirst)
    exact .inr ⟨row, hmem, plan, hoffers, hplan, hsome⟩

end FakeProvider

end ControlPlane
