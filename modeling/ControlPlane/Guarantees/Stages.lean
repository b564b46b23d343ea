import ControlPlane.Controller.Untimed
import ControlPlane.Guarantees.Provenance
import ControlPlane.Settling

/-!
# How far a claim is from rest

With the fake provider at a fixed time, the stored claim, its Host and its resource tell what the
next turn of the claim would do. That is its stage. Every stage is on a path of at most two steps
to a stage the passes leave alone.
-/

namespace ControlPlane

open Interaction Controller FakeProvider

/-! ## Stages -/

/-- What the next turn of a claim finds. -/
inductive Stage where
  -- being deleted: its due Host has a resource, or none; it has no Host
  | releasing
  | released
  | discarded
  | gone
  -- without a Host: a plan fits; none fits, which it has not been told yet, or has
  | unplaced
  | misfit
  | rejected
  -- with a due Host: its resource is missing, or was not created yet; it was not published yet, or
  -- was
  | lost
  | vacant
  | unstable
  | serving
  -- its Host, or the claim, is not due, or its Host has failed
  | resting
  deriving DecidableEq, Repr

namespace Stage

/-- The stage after one turn that makes progress. -/
def next : Stage → Stage
  | .releasing => .released
  | .released | .discarded => .gone
  | .unplaced | .lost => .vacant
  | .misfit => .rejected
  | .vacant | .unstable => .serving
  | stage => stage

/-- How many turns make progress. -/
def steps : Stage → ℕ
  | .releasing | .unplaced | .lost => 2
  | .released | .discarded | .misfit | .vacant | .unstable => 1
  | .gone | .rejected | .serving | .resting => 0

/-- The stages as a path. -/
def path : Countdown Stage where
  steps := steps
  next := next
  steps_next stage h := by
    cases stage <;> first | rfl | exact absurd rfl h

theorem steps_le (stage : Stage) : path.steps stage ≤ 2 := by
  cases stage <;> decide

end Stage

/-! ## The stage of a claim -/

/-- A condition of `markUnsatisfiable` is published, whenever it was. -/
def HostClaimRecord.tells (claim : HostClaimRecord) (conditionType reason message : String) :
    Prop :=
  publishedAs claim.resource.status.conditions conditionType =
    some (newCondition conditionType .false reason message claim.resource.generation ⟨0⟩)

instance (claim : HostClaimRecord) (conditionType reason message : String) :
    Decidable (claim.tells conditionType reason message) :=
  inferInstanceAs (Decidable (_ = _))

/-- The claim has been told that no plan fits. -/
def HostClaimRecord.ToldUnsatisfiable (claim : HostClaimRecord) : Prop :=
  claim.tells "Accepted" "Unsatisfiable"
      "No provider plan can satisfy the requested allocatable resources." ∧
    claim.tells "Bound" "HostPending" "No Host has been assigned." ∧
    claim.tells "Ready" "HostNotReady" "No Ready Host is assigned."

instance (claim : HostClaimRecord) : Decidable claim.ToldUnsatisfiable :=
  inferInstanceAs (Decidable (_ ∧ _))

section Stage

variable (nowMs : Int64) (fake : FakeDatabase)

/-- An enabled plan of the catalog fits the claim. -/
def Placeable (claim : HostClaimRecord) : Prop :=
  ∃ row ∈ fake.plans, Offers row claim.resource.spec.resources

instance (claim : HostClaimRecord) : Decidable (Placeable fake claim) :=
  inferInstanceAs (Decidable (∃ row ∈ fake.plans, _))

/-- The stage of a claim without a Host. -/
def unboundStage (claim : HostClaimRecord) : Stage :=
  if claim.resource.deletionTimestamp.isSome then .discarded
  else if !claim.retry.isDue nowMs then .resting
  else if Placeable fake claim then .unplaced
  else if claim.ToldUnsatisfiable then .rejected
  else .misfit

/-- The stage of a claim with a Host. -/
def boundStage (claim : HostClaimRecord) (host : HostRecord) : Stage :=
  if !host.retry.isDue nowMs then .resting
  else
    match claim.resource.deletionTimestamp, fake.resourceRow host.resource.id with
    | some _, some _ => .releasing
    | some _, none => .released
    | none, row =>
      if host.resource.status.phase = .failed then .resting
      else
        match row with
        | some row =>
          if providerObservationIsStable host ⟨row.id, row.hostId, .ready⟩ then .serving
          else .unstable
        | none =>
          if host.resource.status.providerResourceId.isSome ∨
              host.resource.status.phase ≠ .pending then .lost
          else .vacant

/-- The stage of the claim with an id. -/
def stage (db : Database) (id : HostClaimId) : Stage :=
  match db.claim? id with
  | none => .gone
  | some claim =>
    match claim.resource.status.hostId with
    | none => unboundStage nowMs fake claim
    | some hostId =>
      match db.host? hostId with
      | none => .resting
      | some host => boundStage nowMs fake claim host

end Stage

section Stage

variable {nowMs : Int64} {fake fake' : FakeDatabase} {db db' : Database} {id : HostClaimId}
  {claim : HostClaimRecord} {host : HostRecord} {hostId : HostId}

theorem stage_of_gone (hclaim : db.claim? id = none) : stage nowMs fake db id = .gone := by
  unfold stage
  rw [hclaim]

theorem stage_of_unbound (hclaim : db.claim? id = some claim)
    (hunbound : claim.resource.status.hostId = none) :
    stage nowMs fake db id = unboundStage nowMs fake claim := by
  unfold stage
  simp only [hclaim, hunbound]

theorem stage_of_bound (hclaim : db.claim? id = some claim)
    (hbound : claim.resource.status.hostId = some hostId) (hhost : db.host? hostId = some host) :
    stage nowMs fake db id = boundStage nowMs fake claim host := by
  unfold stage
  simp only [hclaim, hbound, hhost]

/-- The stage of a claim depends on its record, its Host, its resource and the catalog. -/
theorem stage_congr (hclaim : db'.claim? id = db.claim? id) (hplans : fake'.plans = fake.plans)
    (hhost : ∀ claim hostId, db.claim? id = some claim →
      claim.resource.status.hostId = some hostId → db'.host? hostId = db.host? hostId ∧
        fake'.resourceRow hostId = fake.resourceRow hostId) :
    stage nowMs fake' db' id = stage nowMs fake db id := by
  unfold stage
  rw [hclaim]
  cases hstored : db.claim? id with
  | none => rfl
  | some claim =>
  dsimp only
  cases hbound : claim.resource.status.hostId with
  | none =>
    have hplaceable : Placeable fake' claim ↔ Placeable fake claim := by
      unfold Placeable
      rw [hplans]
    unfold unboundStage
    simp only [hplaceable]
  | some hostId =>
    obtain ⟨hsame, hrow⟩ := hhost claim hostId hstored hbound
    dsimp only
    rw [hsame]
    cases hfound : db.host? hostId with
    | none => rfl
    | some host =>
      dsimp only
      unfold boundStage
      rw [Database.host?_id hfound, hrow]

/-! ### Stages with a Host -/

theorem boundStage_of_postponed (hdue : host.retry.isDue nowMs = false) :
    boundStage nowMs fake claim host = .resting := by
  unfold boundStage
  rw [if_pos (by rw [hdue]; rfl)]

theorem boundStage_of_deleting (hdue : host.retry.isDue nowMs = true)
    (hdeleting : claim.resource.deletionTimestamp.isSome) :
    boundStage nowMs fake claim host =
      if (fake.resourceRow host.resource.id).isSome then .releasing else .released := by
  obtain ⟨now, hnow⟩ := Option.isSome_iff_exists.mp hdeleting
  unfold boundStage
  rw [hdue, hnow]
  cases fake.resourceRow host.resource.id <;> rfl

theorem boundStage_of_failed (hlive : claim.resource.deletionTimestamp = none)
    (hfailed : host.resource.status.phase = .failed) :
    boundStage nowMs fake claim host = .resting := by
  unfold boundStage
  rw [hlive]
  simp only [hfailed, if_true, ite_self]

theorem boundStage_of_present {row : ProviderResourceRow}
    (hlive : claim.resource.deletionTimestamp = none) (hdue : host.retry.isDue nowMs = true)
    (hfailed : host.resource.status.phase ≠ .failed)
    (hrow : fake.resourceRow host.resource.id = some row) :
    boundStage nowMs fake claim host =
      if providerObservationIsStable host ⟨row.id, row.hostId, .ready⟩ then .serving
      else .unstable := by
  unfold boundStage
  rw [hdue, hlive, hrow]
  simp only [if_neg hfailed]
  rfl

theorem boundStage_of_absent (hlive : claim.resource.deletionTimestamp = none)
    (hdue : host.retry.isDue nowMs = true) (hfailed : host.resource.status.phase ≠ .failed)
    (hrow : fake.resourceRow host.resource.id = none) :
    boundStage nowMs fake claim host =
      if host.resource.status.providerResourceId.isSome ∨ host.resource.status.phase ≠ .pending
      then .lost else .vacant := by
  unfold boundStage
  rw [hdue, hlive, hrow]
  simp only [if_neg hfailed]
  rfl

/-! ### Stages without a Host -/

theorem unboundStage_of_deleting (hdeleting : claim.resource.deletionTimestamp.isSome) :
    unboundStage nowMs fake claim = .discarded := by
  unfold unboundStage
  rw [if_pos hdeleting]

theorem unboundStage_of_postponed (hlive : claim.resource.deletionTimestamp = none)
    (hdue : claim.retry.isDue nowMs = false) : unboundStage nowMs fake claim = .resting := by
  unfold unboundStage
  rw [hlive, hdue]
  rfl

theorem unboundStage_of_due (hlive : claim.resource.deletionTimestamp = none)
    (hdue : claim.retry.isDue nowMs = true) :
    unboundStage nowMs fake claim =
      if Placeable fake claim then .unplaced
      else if claim.ToldUnsatisfiable then .rejected else .misfit := by
  unfold unboundStage
  rw [hlive, hdue]
  rfl

/-! ### What a stage tells -/

/-- Only a Host that is due without a resource is given up together with its claim. -/
theorem boundStage_next_gone
    (h : Stage.path.next (boundStage nowMs fake claim host) = .gone) :
    fake.resourceRow host.resource.id = none := by
  by_cases hdue : host.retry.isDue nowMs = true
  · cases hrow : fake.resourceRow host.resource.id with
    | none => rfl
    | some row =>
      cases hdeletion : claim.resource.deletionTimestamp with
      | some now =>
        rw [boundStage_of_deleting hdue (by rw [hdeletion]; rfl), hrow] at h
        cases h
      | none =>
        by_cases hfailed : host.resource.status.phase = .failed
        · rw [boundStage_of_failed hdeletion hfailed] at h
          cases h
        · rw [boundStage_of_present hdeletion hdue hfailed hrow] at h
          split at h <;> cases h
  · rw [boundStage_of_postponed (Bool.eq_false_iff.mpr hdue)] at h
    cases h

/-- A Host that is stable with a ready resource is ready, and no error is outstanding. -/
theorem ready_of_stable {resourceId : String}
    (h : providerObservationIsStable host ⟨resourceId, hostId, .ready⟩ = true) :
    host.resource.status.phase = .ready ∧
      host.resource.status.providerResourceId = some resourceId ∧
      host.retry.lastErrorKind = none := by
  unfold providerObservationIsStable at h
  simp only [Bool.and_eq_true, decide_eq_true_eq, Option.isNone_iff_eq_none] at h
  exact ⟨h.1.1.1.1.1, h.1.1.1.1.2, h.1.2⟩

/-- A claim that serves has a due Host with its one resource. -/
theorem boundStage_eq_serving (h : boundStage nowMs fake claim host = .serving) :
    claim.resource.deletionTimestamp = none ∧ host.retry.isDue nowMs = true ∧
      ∃ row, fake.resourceRow host.resource.id = some row ∧
        providerObservationIsStable host ⟨row.id, row.hostId, .ready⟩ = true := by
  by_cases hdue : host.retry.isDue nowMs = true
  · cases hdeletion : claim.resource.deletionTimestamp with
    | some now =>
      rw [boundStage_of_deleting hdue (by rw [hdeletion]; rfl)] at h
      split at h <;> cases h
    | none =>
      by_cases hfailed : host.resource.status.phase = .failed
      · rw [boundStage_of_failed hdeletion hfailed] at h
        cases h
      · cases hrow : fake.resourceRow host.resource.id with
        | none =>
          rw [boundStage_of_absent hdeletion hdue hfailed hrow] at h
          split at h <;> cases h
        | some row =>
          rw [boundStage_of_present hdeletion hdue hfailed hrow] at h
          split at h
          · rename_i hstable
            exact ⟨rfl, hdue, row, rfl, hstable⟩
          · cases h
  · rw [boundStage_of_postponed (Bool.eq_false_iff.mpr hdue)] at h
    cases h

/-- No claim that is stored is gone, and none that has a Host is rejected. -/
theorem boundStage_ne (claim : HostClaimRecord) (host : HostRecord) :
    boundStage nowMs fake claim host ≠ .gone ∧ boundStage nowMs fake claim host ≠ .rejected := by
  unfold boundStage
  split
  · decide
  · split
    · decide
    · decide
    · split
      · decide
      · split
        · split <;> decide
        · split <;> decide

theorem unboundStage_ne (claim : HostClaimRecord) :
    unboundStage nowMs fake claim ≠ .gone ∧ unboundStage nowMs fake claim ≠ .serving := by
  unfold unboundStage
  split
  · decide
  · split
    · decide
    · split
      · decide
      · split <;> decide

theorem unboundStage_eq_rejected (h : unboundStage nowMs fake claim = .rejected) :
    claim.ToldUnsatisfiable := by
  unfold unboundStage at h
  split at h
  · cases h
  · split at h
    · cases h
    · split at h
      · cases h
      · split at h
        · assumption
        · cases h

/-- Where a stage comes from. -/
theorem stage_cases {place : Stage} (h : stage nowMs fake db id = place) :
    place = .gone ∧ db.claim? id = none ∨ place = .resting ∨
      (∃ claim, db.claim? id = some claim ∧ unboundStage nowMs fake claim = place) ∨
      ∃ claim host, db.claim? id = some claim ∧
        claim.resource.status.hostId = some host.resource.id ∧
        db.host? host.resource.id = some host ∧ boundStage nowMs fake claim host = place := by
  subst h
  cases hclaim : db.claim? id with
  | none => exact .inl ⟨stage_of_gone hclaim, rfl⟩
  | some claim =>
    cases hbound : claim.resource.status.hostId with
    | none => exact .inr (.inr (.inl ⟨claim, rfl, (stage_of_unbound hclaim hbound).symm⟩))
    | some hostId =>
      cases hhost : db.host? hostId with
      | none =>
        refine .inr (.inl ?_)
        unfold stage
        simp only [hclaim, hbound, hhost]
      | some host =>
        obtain rfl := Database.host?_id hhost
        exact .inr (.inr (.inr
          ⟨claim, host, rfl, hbound, hhost, (stage_of_bound hclaim hbound hhost).symm⟩))

theorem stage_eq_gone (h : stage nowMs fake db id = .gone) : db.claim? id = none := by
  rcases stage_cases h with ⟨-, hnone⟩ | hplace | ⟨claim, -, hplace⟩ |
    ⟨claim, host, -, -, -, hplace⟩
  · exact hnone
  · cases hplace
  · exact absurd hplace (unboundStage_ne claim).1
  · exact absurd hplace (boundStage_ne claim host).1

theorem stage_eq_serving (h : stage nowMs fake db id = .serving) :
    ∃ claim host, db.claim? id = some claim ∧
      claim.resource.status.hostId = some host.resource.id ∧
      db.host? host.resource.id = some host ∧ boundStage nowMs fake claim host = .serving := by
  rcases stage_cases h with ⟨hplace, -⟩ | hplace | ⟨claim, -, hplace⟩ | hserving
  · cases hplace
  · cases hplace
  · exact absurd hplace (unboundStage_ne claim).2
  · exact hserving

theorem stage_eq_rejected (h : stage nowMs fake db id = .rejected) :
    ∃ claim, db.claim? id = some claim ∧ claim.ToldUnsatisfiable := by
  rcases stage_cases h with ⟨hplace, -⟩ | hplace | ⟨claim, hclaim, hplace⟩ |
    ⟨claim, host, -, -, -, hplace⟩
  · cases hplace
  · cases hplace
  · exact ⟨claim, hclaim, unboundStage_eq_rejected hplace⟩
  · exact absurd hplace (boundStage_ne claim host).2

end Stage

/-! ## Telling a claim that no plan fits -/

section Unsatisfiable

variable {claim : HostClaimRecord}

/-- Three conditions set one after the other are published, and reported as a change unless they
    were published before. -/
theorem setCondition_three {conditions : List Condition} (first second third : Condition)
    (hfirst : first.conditionType ∈ conditionTypes conditions)
    (hsecond : second.conditionType ∈ conditionTypes conditions)
    (hthird : third.conditionType ∈ conditionTypes conditions)
    (hne : first.conditionType ≠ second.conditionType)
    (hne' : first.conditionType ≠ third.conditionType)
    (hne'' : second.conditionType ≠ third.conditionType) :
    let once := setCondition conditions first
    let twice := setCondition once.1 second
    let thrice := setCondition twice.1 third
    ((once.2 || twice.2 || thrice.2) = false ↔
      publishedAs conditions first.conditionType = some first.untimed ∧
        publishedAs conditions second.conditionType = some second.untimed ∧
        publishedAs conditions third.conditionType = some third.untimed) ∧
      publishedAs thrice.1 first.conditionType = some first.untimed ∧
      publishedAs thrice.1 second.conditionType = some second.untimed ∧
      publishedAs thrice.1 third.conditionType = some third.untimed := by
  have hsecond' : second.conditionType ∈ conditionTypes (setCondition conditions first).1 := by
    rw [conditionTypes_setCondition hfirst]
    exact hsecond
  have hthird' : third.conditionType ∈
      conditionTypes (setCondition (setCondition conditions first).1 second).1 := by
    rw [conditionTypes_setCondition hsecond', conditionTypes_setCondition hfirst]
    exact hthird
  refine ⟨?_, ?_, ?_, publishedAs_setCondition_self hthird'⟩
  · rw [Bool.or_eq_false_iff, Bool.or_eq_false_iff, setCondition_unchanged_iff,
      setCondition_unchanged_iff, setCondition_unchanged_iff,
      publishedAs_setCondition_ne hfirst hne.symm,
      publishedAs_setCondition_ne hsecond' hne''.symm, publishedAs_setCondition_ne hfirst hne'.symm,
      and_assoc]
  · rw [publishedAs_setCondition_ne hthird' hne', publishedAs_setCondition_ne hsecond' hne,
      publishedAs_setCondition_self hfirst]
  · rw [publishedAs_setCondition_ne hthird' hne'', publishedAs_setCondition_self hsecond']

/-- A claim is told once. -/
theorem markUnsatisfiable_told (htyped : claim.Typed) (now : Timestamp) :
    ((markUnsatisfiable claim now).2 = false ↔ claim.ToldUnsatisfiable) ∧
      (markUnsatisfiable claim now).1.ToldUnsatisfiable := by
  have hmem : ∀ conditionType ∈ claimConditionTypes,
      conditionType ∈ conditionTypes claim.resource.status.conditions := by
    intro conditionType hmem
    rw [show conditionTypes claim.resource.status.conditions = claimConditionTypes from htyped]
    exact hmem
  exact setCondition_three
    (newCondition "Accepted" .false "Unsatisfiable"
      "No provider plan can satisfy the requested allocatable resources."
      claim.resource.generation now)
    (newCondition "Bound" .false "HostPending" "No Host has been assigned."
      claim.resource.generation now)
    (newCondition "Ready" .false "HostNotReady" "No Ready Host is assigned."
      claim.resource.generation now)
    (hmem "Accepted" (by decide)) (hmem "Bound" (by decide)) (hmem "Ready" (by decide))
    (by simp) (by simp) (by simp)

end Unsatisfiable

end ControlPlane
