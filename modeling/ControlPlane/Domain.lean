import ControlPlane.Protocol.Resources

/-!
# Records, retry states and conditions

The pure core of the daemon, `domain.rs`: the records the controller works on, the retry
deadline arithmetic, the initial resources and `set_condition`. A function of the source that
reads the clock takes the reading as an argument here.
-/

namespace ControlPlane

/-! ## Machine arithmetic -/

/-- `i64::saturating_add`. -/
def saturatingAdd (a b : Int64) : Int64 :=
  Int64.ofInt (max Int64.minValue.toInt (min Int64.maxValue.toInt (a.toInt + b.toInt)))

/-- `i64::saturating_mul`. -/
def saturatingMul (a b : Int64) : Int64 :=
  Int64.ofInt (max Int64.minValue.toInt (min Int64.maxValue.toInt (a.toInt * b.toInt)))

/-- `attempt.saturating_add(1)` on `u32`. -/
def nextAttempt (attempt : UInt32) : UInt32 :=
  if attempt = 4294967295 then attempt else attempt + 1

/-! ## Records -/

/-- `RetryState`; its field defaults are `RetryState::default()`. -/
structure RetryState where
  attempt : UInt32 := 0
  nextReconcileAtUnixMs : Option Int64 := none
  lastErrorKind : Option String := none
  lastErrorMessage : Option String := none
  deriving DecidableEq, Repr

/-- `RetryState::default`. -/
def RetryState.default : RetryState := {}

/-- `RetryState::is_due`. -/
def RetryState.isDue (retry : RetryState) (nowUnixMs : Int64) : Bool :=
  match retry.nextReconcileAtUnixMs with
  | none => true
  | some deadline => deadline ≤ nowUnixMs

/-- `HostClaimRecord`. -/
structure HostClaimRecord where
  resource : HostClaim
  retry : RetryState
  deriving DecidableEq, Repr

/-- `HostRecord`. -/
structure HostRecord where
  resource : Host
  providerPlanId : String
  retry : RetryState
  deriving DecidableEq, Repr

/-- `retry_deadline`: exponential in the attempt, at most a minute away. -/
def retryDeadline (nowUnixMs : Int64) (attempt : UInt32) : Int64 :=
  let exponent := min attempt.toNat 6
  let delayMs := saturatingMul 1000 (1 <<< Int64.ofNat exponent)
  saturatingAdd nowUnixMs (min delayMs 60000)

example : retryDeadline 1000 99 = 61000 := by decide

/-! ## Conditions -/

/-- `new_condition`. -/
def newCondition (conditionType : String) (status : ConditionStatus) (reason message : String)
    (observedGeneration : UInt64) (now : Timestamp) : Condition :=
  { conditionType, status, reason, message, observedGeneration, lastTransitionAt := now }

/-- Rewrite the first element that satisfies `p`, as `iter_mut().find(..)` followed by an
    assignment does. -/
def updateFirst {α : Type} (p : α → Bool) (f : α → α) : List α → List α
  | [] => []
  | x :: xs => if p x then f x :: xs else x :: updateFirst p f xs

/-- `set_condition`: the new list, and whether it changed. -/
def setCondition (conditions : List Condition) (next : Condition) : List Condition × Bool :=
  let sameType := fun condition : Condition => decide (condition.conditionType = next.conditionType)
  match conditions.find? sameType with
  | some current =>
    if current.status = next.status ∧ current.reason = next.reason ∧
        current.message = next.message ∧
        current.observedGeneration = next.observedGeneration then
      (conditions, false)
    else if current.status = next.status ∧ current.reason = next.reason then
      (updateFirst sameType (fun current =>
        { current with
          message := next.message, observedGeneration := next.observedGeneration }) conditions,
        true)
    else
      (updateFirst sameType (fun _ => next) conditions, true)
  | none =>
    ((conditions ++ [next]).insertionSort fun left right =>
      left.conditionType ≤ right.conditionType, true)

/-- `set_condition` on a claim's status, its report dropped. -/
def HostClaimRecord.setCondition (claim : HostClaimRecord) (next : Condition) : HostClaimRecord :=
  { claim with
    resource.status.conditions :=
      (ControlPlane.setCondition claim.resource.status.conditions next).1 }

/-- `set_condition` on a Host's status, its report dropped. -/
def HostRecord.setCondition (host : HostRecord) (next : Condition) : HostRecord :=
  { host with
    resource.status.conditions :=
      (ControlPlane.setCondition host.resource.status.conditions next).1 }

/-- The status published under a condition type, if the type is there. -/
def conditionStatus (conditions : List Condition) (conditionType : String) :
    Option ConditionStatus :=
  (conditions.find? fun condition => condition.conditionType = conditionType).map (·.status)

/-! ## Initial resources -/

/-- `initial_claim`. -/
def initialClaim (id : HostClaimId) (spec : HostClaimSpec) (now : Timestamp) : HostClaim where
  id := id
  generation := 1
  createdAt := now
  deletionTimestamp := none
  spec := spec
  status :=
    { observedGeneration := 0
      hostId := none
      conditions :=
        [ newCondition "Accepted" .unknown "PendingEvaluation"
            "The controller has not evaluated this claim yet." 0 now,
          newCondition "Bound" .false "HostPending" "No Host has been assigned." 0 now,
          newCondition "Ready" .false "HostNotReady" "No Ready Host is assigned." 0 now ] }

/-- `initial_host`. -/
def initialHost (id : HostId) (claimId : HostClaimId) (resources : HostResources)
    (now : Timestamp) : Host where
  id := id
  claimId := claimId
  createdAt := now
  allocatableResources := resources
  status :=
    { phase := .pending
      providerResourceId := none
      observedAt := none
      conditions :=
        [ newCondition "Ready" .false "ProviderResourcePending"
            "No provider resource is currently Ready." 1 now ] }

/-! ## What `set_condition` does to a published status -/

/-- The condition types of a list, in order. -/
def conditionTypes (conditions : List Condition) : List String :=
  conditions.map (·.conditionType)

section updateFirst

variable {α : Type} {p : α → Bool} {f : α → α}

theorem updateFirst_map {β : Type} (g : α → β) (h : ∀ x, p x = true → g (f x) = g x) :
    ∀ xs : List α, (updateFirst p f xs).map g = xs.map g
  | [] => rfl
  | x :: xs => by
    unfold updateFirst
    split
    · rename_i hp
      simp [h x hp]
    · simp [updateFirst_map g h xs]

/-- Searching for something `f` neither makes nor destroys. -/
theorem updateFirst_find?_ne {q : α → Bool} (h : ∀ x, p x = true → q x = false ∧ q (f x) = false) :
    ∀ xs : List α, (updateFirst p f xs).find? q = xs.find? q
  | [] => rfl
  | x :: xs => by
    unfold updateFirst
    split
    · rename_i hp
      simp [h x hp]
    · simp only [List.find?_cons]
      rw [updateFirst_find?_ne h xs]

/-- Searching for what was rewritten. -/
theorem updateFirst_find?_eq (h : ∀ x, p x = true → p (f x) = true) :
    ∀ xs : List α, (updateFirst p f xs).find? p = (xs.find? p).map f
  | [] => rfl
  | x :: xs => by
    unfold updateFirst
    split
    · rename_i hp
      simp [hp, h x hp]
    · rename_i hp
      simp only [List.find?_cons, hp]
      exact updateFirst_find?_eq h xs

end updateFirst

theorem find?_conditionType_of_mem {conditions : List Condition} {conditionType : String}
    (h : conditionType ∈ conditionTypes conditions) :
    ∃ current, conditions.find? (fun condition => decide (condition.conditionType = conditionType))
      = some current ∧ current.conditionType = conditionType := by
  obtain ⟨condition, hmem, heq⟩ := List.mem_map.mp h
  cases hfind : conditions.find? fun c => decide (c.conditionType = conditionType) with
  | none =>
    have := List.find?_eq_none.mp hfind condition hmem
    simp [heq] at this
  | some current => exact ⟨current, rfl, by simpa using List.find?_some hfind⟩

/-- A type that is present keeps its place. -/
theorem conditionTypes_setCondition {conditions : List Condition} {next : Condition}
    (h : next.conditionType ∈ conditionTypes conditions) :
    conditionTypes (setCondition conditions next).1 = conditionTypes conditions := by
  obtain ⟨current, hfind, -⟩ := find?_conditionType_of_mem h
  simp only [setCondition, hfind]
  split
  · rfl
  split
  · apply updateFirst_map
    intros
    rfl
  · apply updateFirst_map
    intro x hx
    exact (of_decide_eq_true hx).symm

/-- The type just set has the status just set. -/
theorem conditionStatus_setCondition_self {conditions : List Condition} {next : Condition}
    (h : next.conditionType ∈ conditionTypes conditions) :
    conditionStatus (setCondition conditions next).1 next.conditionType = some next.status := by
  obtain ⟨current, hfind, -⟩ := find?_conditionType_of_mem h
  simp only [setCondition, conditionStatus, hfind]
  split
  · rename_i heq
    simp [hfind, heq.1]
  split
  · rename_i heq
    rw [updateFirst_find?_eq, hfind]
    · simp [heq.1]
    · exact fun _ hx => hx
  · rw [updateFirst_find?_eq, hfind]
    · rfl
    · simp

/-- Every other type keeps its status. -/
theorem conditionStatus_setCondition_ne {conditions : List Condition} {next : Condition}
    {conditionType : String} (h : next.conditionType ∈ conditionTypes conditions)
    (hne : conditionType ≠ next.conditionType) :
    conditionStatus (setCondition conditions next).1 conditionType =
      conditionStatus conditions conditionType := by
  obtain ⟨current, hfind, -⟩ := find?_conditionType_of_mem h
  simp only [setCondition, conditionStatus, hfind]
  split
  · rfl
  split
  all_goals
    rw [updateFirst_find?_ne]
    intro x hx
    simp [of_decide_eq_true hx, Ne.symm hne]

end ControlPlane
