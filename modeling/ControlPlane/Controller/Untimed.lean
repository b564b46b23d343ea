import ControlPlane.Controller.Visits

/-!
# Records apart from their timestamps

`observed_at` and `last_transition_at` change whenever the same thing is seen or set again.
`untimed` blanks them, in conditions, records and rows alike, and two states are `Unchanged`
when nothing else differs. The report of `set_condition` is about the list without its
timestamps.
-/

namespace ControlPlane

open Interaction

/-! ## Blanking timestamps -/

/-- A condition without `last_transition_at`. -/
def Condition.untimed (condition : Condition) : Condition :=
  { condition with lastTransitionAt := ⟨0⟩ }

/-- A stored claim without the timestamps of its conditions. -/
def HostClaimRow.untimed (row : HostClaimRow) : HostClaimRow :=
  { row with conditionsJson := row.conditionsJson.map Condition.untimed }

/-- A stored Host without `observed_at` and the timestamps of its conditions. -/
def HostRow.untimed (row : HostRow) : HostRow :=
  { row with observedAt := none, conditionsJson := row.conditionsJson.map Condition.untimed }

/-- A claim record without the timestamps of its conditions. -/
def HostClaimRecord.untimed (claim : HostClaimRecord) : HostClaimRecord :=
  { claim with
    resource.status.conditions := claim.resource.status.conditions.map Condition.untimed }

/-- A Host record without `observed_at` and the timestamps of its conditions. -/
def HostRecord.untimed (host : HostRecord) : HostRecord :=
  { host with
    resource.status.observedAt := none
    resource.status.conditions := host.resource.status.conditions.map Condition.untimed }

/-- The stored claims, the stored Hosts and the provider differ in timestamps at most. -/
structure Unchanged {σ : Type} (world world' : World σ) : Prop where
  claims : world'.database.hostClaims.map HostClaimRow.untimed =
    world.database.hostClaims.map HostClaimRow.untimed
  hosts : world'.database.hosts.map HostRow.untimed =
    world.database.hosts.map HostRow.untimed
  provider : world'.provider = world.provider

/-! ## `set_condition` -/

section setCondition

variable {conditions : List Condition} {next : Condition} {conditionType : String}

/-- What is published under a condition type, apart from its timestamp. -/
def publishedAs (conditions : List Condition) (conditionType : String) : Option Condition :=
  (conditions.find? fun condition => condition.conditionType = conditionType).map
    Condition.untimed

theorem publishedAs_untimed :
    publishedAs conditions conditionType =
      (conditions.map Condition.untimed).find? fun condition =>
        condition.conditionType = conditionType := by
  unfold publishedAs
  rw [List.find?_map]
  rfl

theorem publishedAs_congr {conditions' : List Condition}
    (h : conditions'.map Condition.untimed = conditions.map Condition.untimed) :
    publishedAs conditions' conditionType = publishedAs conditions conditionType := by
  rw [publishedAs_untimed, publishedAs_untimed, h]

/-- `set_condition` reports no change exactly where the condition is already published. -/
theorem setCondition_unchanged_iff :
    (setCondition conditions next).2 = false ↔
      publishedAs conditions next.conditionType = some next.untimed := by
  cases hfind : conditions.find? fun c => decide (c.conditionType = next.conditionType) with
  | none => simp [setCondition, publishedAs, hfind]
  | some current =>
    have htype : current.conditionType = next.conditionType := by
      simpa using List.find?_some hfind
    simp only [setCondition, publishedAs, hfind, Option.map_some, Option.some.injEq]
    constructor
    · intro h
      split at h
      · rename_i heq
        obtain ⟨hstatus, hreason, hmessage, hgeneration⟩ := heq
        unfold Condition.untimed
        rw [htype, hstatus, hreason, hmessage, hgeneration]
      · split at h <;> cases h
    · intro h
      unfold Condition.untimed at h
      obtain ⟨-, hstatus, hreason, hmessage, hgeneration, -⟩ := Condition.mk.inj h
      rw [if_pos ⟨hstatus, hreason, hmessage, hgeneration⟩]

/-- Afterwards it is published, if its type was there. -/
theorem publishedAs_setCondition_self (h : next.conditionType ∈ conditionTypes conditions) :
    publishedAs (setCondition conditions next).1 next.conditionType = some next.untimed := by
  obtain ⟨current, hfind, htype⟩ := find?_conditionType_of_mem h
  simp only [setCondition, publishedAs, hfind]
  split
  · rename_i heq
    obtain ⟨hstatus, hreason, hmessage, hgeneration⟩ := heq
    rw [hfind]
    simp [Condition.untimed, htype, hstatus, hreason, hmessage, hgeneration]
  split
  · rename_i heq
    rw [updateFirst_find?_eq, hfind]
    · simp [Condition.untimed, htype, heq.1, heq.2]
    · exact fun _ hx => hx
  · rw [updateFirst_find?_eq, hfind]
    · rfl
    · simp

/-- Every other type keeps what it publishes. -/
theorem publishedAs_setCondition_ne (h : next.conditionType ∈ conditionTypes conditions)
    (hne : conditionType ≠ next.conditionType) :
    publishedAs (setCondition conditions next).1 conditionType =
      publishedAs conditions conditionType := by
  obtain ⟨current, hfind, -⟩ := find?_conditionType_of_mem h
  simp only [setCondition, publishedAs, hfind]
  split
  · rfl
  split
  all_goals
    rw [updateFirst_find?_ne]
    intro x hx
    simp [of_decide_eq_true hx, Ne.symm hne]

theorem length_setCondition_of_mem (h : next.conditionType ∈ conditionTypes conditions) :
    (setCondition conditions next).1.length = conditions.length := by
  have htypes := congrArg List.length (conditionTypes_setCondition h)
  simpa [conditionTypes] using htypes

theorem length_setCondition_of_not_mem
    (h : next.conditionType ∉ conditionTypes conditions) :
    (setCondition conditions next).1.length = conditions.length + 1 := by
  have hnone : conditions.find? (fun c => decide (c.conditionType = next.conditionType)) =
      none := by
    rw [List.find?_eq_none]
    intro condition hmem heq
    exact h (List.mem_map.mpr ⟨condition, hmem, of_decide_eq_true heq⟩)
  simp only [setCondition, hnone]
  rw [List.length_insertionSort, List.length_append]
  rfl

theorem length_le_setCondition (conditions : List Condition) (next : Condition) :
    conditions.length ≤ (setCondition conditions next).1.length := by
  by_cases h : next.conditionType ∈ conditionTypes conditions
  · rw [length_setCondition_of_mem h]
  · rw [length_setCondition_of_not_mem h]
    omega

/-- Three conditions that leave a list as it was were all published before. -/
theorem setCondition_thrice {first second third : Condition}
    (hfirst : first.conditionType ≠ second.conditionType)
    (hsecond : second.conditionType ≠ third.conditionType)
    (hthird : first.conditionType ≠ third.conditionType)
    (h : (setCondition (setCondition (setCondition conditions first).1 second).1 third).1.map
        Condition.untimed = conditions.map Condition.untimed) :
    (setCondition conditions first).2 = false ∧
      (setCondition (setCondition conditions first).1 second).2 = false ∧
      (setCondition (setCondition (setCondition conditions first).1 second).1 third).2 = false := by
  have hlength := congrArg List.length h
  rw [List.length_map, List.length_map] at hlength
  have hafterFirst := length_le_setCondition conditions first
  have hafterSecond := length_le_setCondition (setCondition conditions first).1 second
  have hafterThird :=
    length_le_setCondition (setCondition (setCondition conditions first).1 second).1 third
  have hmemFirst : first.conditionType ∈ conditionTypes conditions := by
    by_contra hnot
    have := length_setCondition_of_not_mem hnot
    omega
  have hmemSecond : second.conditionType ∈ conditionTypes (setCondition conditions first).1 := by
    by_contra hnot
    have := length_setCondition_of_not_mem hnot
    omega
  have hmemThird : third.conditionType ∈
      conditionTypes (setCondition (setCondition conditions first).1 second).1 := by
    by_contra hnot
    have := length_setCondition_of_not_mem hnot
    omega
  have hpublishedFirst : publishedAs conditions first.conditionType = some first.untimed := by
    rw [← publishedAs_congr h, publishedAs_setCondition_ne hmemThird hthird,
      publishedAs_setCondition_ne hmemSecond hfirst, publishedAs_setCondition_self hmemFirst]
  have hpublishedSecond : publishedAs (setCondition conditions first).1 second.conditionType =
      some second.untimed := by
    rw [publishedAs_setCondition_ne hmemFirst hfirst.symm, ← publishedAs_congr h,
      publishedAs_setCondition_ne hmemThird hsecond, publishedAs_setCondition_self hmemSecond]
  have hpublishedThird : publishedAs (setCondition (setCondition conditions first).1 second).1
      third.conditionType = some third.untimed := by
    rw [publishedAs_setCondition_ne hmemSecond hsecond.symm,
      publishedAs_setCondition_ne hmemFirst hthird.symm, ← publishedAs_congr h,
      publishedAs_setCondition_self hmemThird]
  exact ⟨setCondition_unchanged_iff.mpr hpublishedFirst,
    setCondition_unchanged_iff.mpr hpublishedSecond,
    setCondition_unchanged_iff.mpr hpublishedThird⟩

end setCondition

/-! ## Records of unchanged rows -/

theorem hostRecordFromRow_untimed (row : HostRow) :
    hostRecordFromRow row.untimed = (hostRecordFromRow row).map HostRecord.untimed := by
  unfold hostRecordFromRow HostRow.untimed
  dsimp only
  cases toU32 row.vcpus "vcpus" <;> try rfl
  cases toU64 row.memoryBytes "memory_bytes" <;> try rfl
  cases toU64 row.storageBytes "storage_bytes" <;> try rfl
  cases hostPhaseFromDb row.phase <;> try rfl
  cases toU32 row.retryAttempt "retry_attempt" <;> rfl

theorem claimRecordFromRow_untimed (row : HostClaimRow) (hostId : Option HostId) :
    claimRecordFromRow { claim := row.untimed, hostId := hostId } =
      (claimRecordFromRow { claim := row, hostId := hostId }).map HostClaimRecord.untimed := by
  unfold claimRecordFromRow HostClaimRow.untimed
  dsimp only
  cases toU64 row.generation "generation" <;> try rfl
  cases toU32 row.vcpus "vcpus" <;> try rfl
  cases toU64 row.memoryBytes "memory_bytes" <;> try rfl
  cases toU64 row.storageBytes "storage_bytes" <;> try rfl
  cases toU64 row.observedGeneration "observed_generation" <;> try rfl
  cases toU32 row.retryAttempt "retry_attempt" <;> rfl

namespace Unchanged

variable {σ : Type} {world world' : World σ}

/-- Every Host record is the same, apart from its timestamps. -/
theorem host? (h : Unchanged world world') (hostId : HostId) :
    (world'.database.host? hostId).map HostRecord.untimed =
      (world.database.host? hostId).map HostRecord.untimed := by
  have hdecoded : ∀ db : Database, (db.host? hostId).map HostRecord.untimed =
      ((db.hosts.map HostRow.untimed).find? fun row => row.id = hostId).bind
        fun row => (hostRecordFromRow row).toOption := by
    intro db
    unfold Database.host?
    rw [Keyed.find?_map (f := HostRow.untimed) fun _ => rfl]
    cases db.hosts.find? fun row => decide (row.id = hostId) with
    | none => rfl
    | some row =>
      simp only [Option.bind_some, Option.map_some, hostRecordFromRow_untimed]
      cases hostRecordFromRow row <;> rfl
  rw [hdecoded, hdecoded, h.hosts]

/-- The Host of a claim is the same. -/
theorem bound (h : Unchanged world world') (claimId : HostClaimId) :
    (Storage.fetchHostForClaimRow world'.database claimId).map (·.id) =
      (Storage.fetchHostForClaimRow world.database claimId).map (·.id) := by
  have herased : ∀ db : Database, (Storage.fetchHostForClaimRow db claimId).map (·.id) =
      ((db.hosts.map HostRow.untimed).find? fun row => row.claimId = claimId).map (·.id) := by
    intro db
    unfold Storage.fetchHostForClaimRow
    rw [Keyed.find?_map (f := HostRow.untimed) fun _ => rfl, Option.map_map]
    rfl
  rw [herased, herased, h.hosts]

/-- Every claim record is the same, apart from its timestamps. -/
theorem claim? (h : Unchanged world world') (claimId : HostClaimId) :
    (world'.database.claim? claimId).map HostClaimRecord.untimed =
      (world.database.claim? claimId).map HostClaimRecord.untimed := by
  have hdecoded : ∀ db : Database, (db.claim? claimId).map HostClaimRecord.untimed =
      ((db.hostClaims.map HostClaimRow.untimed).find? fun row => row.id = claimId).bind
        fun row => (claimRecordFromRow (Storage.joinHost db row)).toOption := by
    intro db
    unfold Database.claim? Storage.fetchClaimRow Storage.joinHost
    rw [Keyed.find?_map (f := HostClaimRow.untimed) fun _ => rfl]
    cases db.hostClaims.find? fun row => decide (row.id = claimId) with
    | none => rfl
    | some row =>
      have hdecode := claimRecordFromRow_untimed row
        ((Storage.fetchHostForClaimRow db row.id).map (·.id))
      simp only [Option.bind_some, Option.map_some]
      refine Eq.trans ?_ (congrArg Except.toOption hdecode).symm
      cases claimRecordFromRow _ <;> rfl
  have hjoin : Storage.joinHost world'.database = Storage.joinHost world.database :=
    funext (Storage.joinHost_congr h.bound)
  rw [hdecoded, hdecoded, h.claims, hjoin]

/-- The same claims are stored. -/
theorem claimIds (h : Unchanged world world') :
    world'.database.hostClaims.map (·.id) = world.database.hostClaims.map (·.id) := by
  have herased : ∀ rows : List HostClaimRow,
      rows.map (·.id) = (rows.map HostClaimRow.untimed).map (·.id) := fun rows => by
    rw [List.map_map]
    rfl
  rw [herased, h.claims, ← herased]

end Unchanged

end ControlPlane
