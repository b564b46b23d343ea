import ControlPlane.Provider.FakeSpecs

/-!
# The cheapest plan that fits

`select_plan` over any catalog the schema allows: it finds the least feasible plan in the order of
price, memory, storage, processors and id, asking for less never costs more, and the order in
which the rows are stored plays no part.
-/

namespace ControlPlane

namespace FakeProvider

variable {draw draw' : Draw} {db db' : FakeDatabase} {requirements larger : HostResources}
  {row other : PlanRow}

/-- One requirement is at most another in every amount. -/
def AtMost (requirements larger : HostResources) : Prop :=
  requirements.vcpus.toNat ≤ larger.vcpus.toNat ∧
    requirements.memoryBytes.toNat ≤ larger.memoryBytes.toNat ∧
    requirements.storageBytes.toNat ≤ larger.storageBytes.toNat

/-- The processors of every plan of the catalog fit a `u32`. -/
def ProcessorsFit (db : FakeDatabase) : Prop :=
  ∀ row ∈ db.plans, row.vcpus.toInt < 2 ^ 32

theorem Offers.of_larger (h : Offers row larger) (hle : AtMost requirements larger) :
    Offers row requirements := by
  obtain ⟨henabled, hvcpus, hmemory, hstorage⟩ := h
  obtain ⟨hvcpusLe, hmemoryLe, hstorageLe⟩ := hle
  exact ⟨henabled, by omega, by omega, by omega⟩

/-- Two rows of a catalog in the same place of the order are one row. -/
theorem order_injective (hrow : row ∈ db.plans) (hother : other ∈ db.plans)
    (h : row.order = other.order) : row = other := by
  apply List.inj_on_of_nodup_map db.schema.planIds hrow hother
  have hkey := congrArg (fun key => (ofLex (ofLex (ofLex (ofLex key).2).2).2).2) h
  exact hkey

/-- A row that comes before another in the order does not cost more. -/
theorem price_le_of_order_le (h : row.order ≤ other.order) :
    row.hourlyPriceMicros ≤ other.hourlyPriceMicros :=
  Int64.le_iff_toInt_le.mpr (Prod.Lex.monotone_fst _ _ h)

theorem mem_offering {requirements : HostResources} :
    row ∈ db.plans.filter (fun row => decide (Offers row requirements)) ↔
      row ∈ db.plans ∧ Offers row requirements := by
  rw [List.mem_filter, decide_eq_true_eq]

/-- What `select_plan` answers for requirements in range: nothing where no plan fits, else the
    first of the plans that do. -/
theorem selectPlan_cases (draw : Draw) (hprocessors : ProcessorsFit db)
    (hrange : InRange requirements) :
    ((perform draw (.selectPlan requirements) db).1 = .ok none ∧
        ∀ row ∈ db.plans, ¬Offers row requirements) ∨
      ∃ row plan, (perform draw (.selectPlan requirements) db).1 = .ok (some plan) ∧
        planFromRow row = .ok plan ∧
        Selection.first PlanRow.order (db.plans.filter fun row => Offers row requirements) =
          some row := by
  have hexit := (select_exit draw requirements db).1
  change SelectExit requirements db (perform draw (.selectPlan requirements) db).1 at hexit
  generalize hanswer : (perform draw (.selectPlan requirements) db).1 = answer at hexit
  cases hexit with
  | outOfRange hout => exact absurd hrange hout
  | unsatisfiable _ hnone => exact .inl ⟨rfl, hnone⟩
  | @unreadable row error _ hfirst hplan =>
    have hmem := (mem_offering.mp (Selection.mem_of_first hfirst)).1
    obtain ⟨plan, hdecode⟩ := planFromRow_succeeds (db.schema.planChecks row hmem)
      (hprocessors row hmem)
    rw [hplan] at hdecode
    cases hdecode
  | @found row plan _ hfirst hplan => exact .inr ⟨row, plan, rfl, hplan, hfirst⟩

/-- The row of a selected plan: it is in the catalog, it fits, and it comes before every other
    row that does. -/
theorem selectPlan_row (hprocessors : ProcessorsFit db) (hrange : InRange requirements)
    {plan : Plan} (h : (perform draw (.selectPlan requirements) db).1 = .ok (some plan)) :
    ∃ row ∈ db.plans, Lists row plan ∧ Offers row requirements ∧
      ∀ other ∈ db.plans, Offers other requirements → row.order ≤ other.order := by
  rcases selectPlan_cases draw hprocessors hrange with
    ⟨hnone, -⟩ | ⟨row, plan', hsome, hplan, hfirst⟩
  · rw [hnone] at h
    cases h
  · rw [hsome] at h
    cases h
    obtain ⟨hmem, hoffers⟩ := mem_offering.mp (Selection.mem_of_first hfirst)
    exact ⟨row, hmem, planFromRow_eq_ok hplan, hoffers, fun other hother hfits =>
      Selection.first_le hfirst (mem_offering.mpr ⟨hother, hfits⟩)⟩

/-- The price of the plan with an id. -/
def priceOf (db : FakeDatabase) (planId : String) : Option Int64 :=
  (db.plans.find? fun row => row.id = planId).map (·.hourlyPriceMicros)

theorem priceOf_row (hmem : row ∈ db.plans) {plan : Plan} (hlists : Lists row plan) :
    priceOf db plan.id = some row.hourlyPriceMicros := by
  have hfind : db.plans.find? (fun r => decide (r.id = plan.id)) = some row :=
    (Keyed.find?_eq_some_iff db.schema.planIds).mpr ⟨hmem, hlists.id.symm⟩
  unfold priceOf
  rw [hfind]
  rfl

/-- For every catalog whose processors fit a `u32` and requirements in range, `select_plan`
    answers; it answers that there is no plan exactly when no enabled plan is large enough, and a
    plan it answers is enabled, large enough and before every other such plan in the order of
    price, memory, storage, processors and id. If larger requirements can be met, so can smaller
    ones, at no higher a price. Catalogs with the same rows in another order get the same
    answer. -/
theorem selectPlan_is_cheapest_and_monotone (hprocessors : ProcessorsFit db)
    (hrange : InRange requirements) (draw : Draw) :
    (∃ answer, (perform draw (.selectPlan requirements) db).1 = .ok answer ∧
      (answer = none ↔ ∀ row ∈ db.plans, ¬Offers row requirements) ∧
      ∀ plan, answer = some plan → ∃ row ∈ db.plans, Lists row plan ∧ Offers row requirements ∧
        ∀ other ∈ db.plans, Offers other requirements → other ≠ row →
          row.order < other.order) ∧
    (∀ draw' larger larger', AtMost requirements larger → InRange larger →
      (perform draw' (.selectPlan larger) db).1 = .ok (some larger') →
      ∃ plan price price', (perform draw (.selectPlan requirements) db).1 = .ok (some plan) ∧
        priceOf db plan.id = some price ∧ priceOf db larger'.id = some price' ∧
        price ≤ price') ∧
    ∀ draw' db', db.plans.Perm db'.plans →
      (perform draw' (.selectPlan requirements) db').1 =
        (perform draw (.selectPlan requirements) db).1 := by
  refine ⟨?_, ?_, ?_⟩
  · rcases selectPlan_cases draw hprocessors hrange with
      ⟨hnone, hnoPlan⟩ | ⟨row, plan, hsome, hplan, hfirst⟩
    · refine ⟨none, hnone, ⟨fun _ => hnoPlan, fun _ => rfl⟩, fun plan heq => ?_⟩
      cases heq
    · obtain ⟨hmem, hoffers⟩ := mem_offering.mp (Selection.mem_of_first hfirst)
      refine ⟨some plan, hsome, ⟨fun heq => ?_, fun hnoPlan => ?_⟩, fun plan' heq => ?_⟩
      · cases heq
      · exact absurd hoffers (hnoPlan row hmem)
      · cases heq
        refine ⟨row, hmem, planFromRow_eq_ok hplan, hoffers, fun other hother hfits hne => ?_⟩
        refine Selection.first_lt (fun left hleft right hright => ?_) hfirst
          (mem_offering.mpr ⟨hother, hfits⟩) hne
        exact order_injective (mem_offering.mp hleft).1 (mem_offering.mp hright).1
  · intro draw' larger larger' hle hrangeLarger hlarger
    obtain ⟨row', hmem', hlists', hoffers', -⟩ := selectPlan_row hprocessors hrangeLarger hlarger
    have hoffers := hoffers'.of_larger hle
    rcases selectPlan_cases draw hprocessors hrange with
      ⟨-, hnoPlan⟩ | ⟨row, plan, hsome, hplan, hfirst⟩
    · exact absurd hoffers (hnoPlan row' hmem')
    · have hmem := (mem_offering.mp (Selection.mem_of_first hfirst)).1
      refine ⟨plan, _, _, hsome, priceOf_row hmem (planFromRow_eq_ok hplan),
        priceOf_row hmem' hlists', ?_⟩
      exact price_le_of_order_le (Selection.first_le hfirst (mem_offering.mpr ⟨hmem', hoffers⟩))
  · intro draw' db' hperm
    have hprocessors' : ProcessorsFit db' := fun row hmem =>
      hprocessors row (hperm.mem_iff.mpr hmem)
    have hsame : Selection.first PlanRow.order
        (db.plans.filter fun row => Offers row requirements) =
        Selection.first PlanRow.order (db'.plans.filter fun row => Offers row requirements) := by
      refine Selection.first_perm (fun left hleft right hright => ?_) (hperm.filter _)
      exact order_injective (mem_offering.mp hleft).1 (mem_offering.mp hright).1
    rcases selectPlan_cases draw hprocessors hrange with
      ⟨hnone, hnoPlan⟩ | ⟨row, plan, hsome, hplan, hfirst⟩
    · rcases selectPlan_cases draw' hprocessors' hrange with
        ⟨hnone', -⟩ | ⟨row', plan', -, -, hfirst'⟩
      · rw [hnone, hnone']
      · obtain ⟨hmem', hoffers'⟩ := mem_offering.mp (Selection.mem_of_first hfirst')
        exact absurd hoffers' (hnoPlan row' (hperm.mem_iff.mpr hmem'))
    · rcases selectPlan_cases draw' hprocessors' hrange with
        ⟨-, hnoPlan'⟩ | ⟨row', plan', hsome', hplan', hfirst'⟩
      · obtain ⟨hmem, hoffers⟩ := mem_offering.mp (Selection.mem_of_first hfirst)
        exact absurd hoffers (hnoPlan' row (hperm.mem_iff.mp hmem))
      · rw [← hsame, hfirst] at hfirst'
        cases hfirst'
        rw [hplan] at hplan'
        cases hplan'
        rw [hsome, hsome']

/-- A catalog with two plans that tie up to their ids, a disabled bargain and a larger plan. -/
def tiedCatalog : FakeDatabase where
  plans :=
    [ { id := "large", vcpus := 8, memoryBytes := 80, storageBytes := 800,
        hourlyPriceMicros := 30, enabled := 1 },
      { id := "small-b", vcpus := 2, memoryBytes := 20, storageBytes := 200,
        hourlyPriceMicros := 10, enabled := 1 },
      { id := "bargain", vcpus := 8, memoryBytes := 80, storageBytes := 800,
        hourlyPriceMicros := 1, enabled := 0 },
      { id := "small-a", vcpus := 2, memoryBytes := 20, storageBytes := 200,
        hourlyPriceMicros := 10, enabled := 1 } ]
  providerResources := []
  faults := []
  schema := by decide

/-- The tie is broken by id, and asking for more costs more. -/
theorem selectPlan_of_tiedCatalog :
    ∃ plan price price',
      (perform ⟨"", ⟨0⟩⟩ (.selectPlan ⟨1, 10, 100⟩) tiedCatalog).1 = .ok (some plan) ∧
      plan.id = "small-a" ∧ priceOf tiedCatalog plan.id = some price ∧
      priceOf tiedCatalog "large" = some price' ∧ price ≤ price' := by
  have hprocessors : ProcessorsFit tiedCatalog := by unfold ProcessorsFit; decide +kernel
  have hrange : InRange ⟨1, 10, 100⟩ := by unfold InRange; decide +kernel
  have hsmall : (perform ⟨"", ⟨0⟩⟩ (.selectPlan ⟨1, 10, 100⟩) tiedCatalog).1 =
      .ok (some ⟨"small-a", ⟨2, 20, 200⟩⟩) := by decide +kernel
  have hlarge : (perform ⟨"", ⟨0⟩⟩ (.selectPlan ⟨4, 10, 100⟩) tiedCatalog).1 =
      .ok (some ⟨"large", ⟨8, 80, 800⟩⟩) := by decide +kernel
  obtain ⟨-, hmonotone, -⟩ := selectPlan_is_cheapest_and_monotone hprocessors hrange ⟨"", ⟨0⟩⟩
  obtain ⟨plan, price, price', hplan, hprice, hprice', hle⟩ :=
    hmonotone _ _ _ (by unfold AtMost; decide +kernel) (by unfold InRange; decide +kernel) hlarge
  refine ⟨plan, price, price', hplan, ?_, hprice, hprice', hle⟩
  rw [hsmall] at hplan
  cases hplan
  rfl

end FakeProvider

end ControlPlane
