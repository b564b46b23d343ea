import ControlPlane.Domain
import ControlPlane.Provider.Model

/-!
# Status updates of the controller

The free functions at the end of `controller.rs`. Each takes the claim and the Host the step
works on and returns both as the step goes on with them. The clock reading a function takes
from `now_timestamp()` is its argument `now`.
-/

namespace ControlPlane

/-- `ReconcileResult`. -/
inductive ReconcileResult where
  | progress
  | idle
  deriving DecidableEq, Repr

/-- The phase a lifecycle stands for. -/
def ProviderLifecycle.expectedPhase : ProviderLifecycle → HostPhase
  | .provisioning => .provisioning
  | .ready => .ready
  | .deleting => .deleting

/-- `provider_observation_is_stable`. -/
def providerObservationIsStable (host : HostRecord) (resource : ProviderResource) : Bool :=
  decide (host.resource.status.phase = resource.lifecycle.expectedPhase) &&
    decide (host.resource.status.providerResourceId = some resource.id) &&
    decide (host.retry.attempt = 0) &&
    host.retry.nextReconcileAtUnixMs.isNone &&
    host.retry.lastErrorKind.isNone &&
    host.retry.lastErrorMessage.isNone

/-- Phase, Ready status, reason and message published for a lifecycle. -/
def ProviderLifecycle.published :
    ProviderLifecycle → HostPhase × ConditionStatus × String × String
  | .provisioning => (.provisioning, .false, "ProviderResourceProvisioning",
      "The provider resource is still provisioning.")
  | .ready => (.ready, .true, "ProviderResourceReady", "The provider resource is Ready.")
  | .deleting => (.deleting, .false, "ProviderResourceDeleting",
      "The provider resource is being deleted.")

/-- `apply_provider_observation`. -/
def applyProviderObservation (claim : HostClaimRecord) (host : HostRecord)
    (resource : ProviderResource) (now : Timestamp) : HostClaimRecord × HostRecord :=
  let (phase, status, reason, message) := resource.lifecycle.published
  let host :=
    { host with
      resource.status.providerResourceId := some resource.id
      resource.status.observedAt := some now
      resource.status.phase := phase
      retry := RetryState.default }.setCondition (newCondition "Ready" status reason message 1 now)
  let generation := claim.resource.generation
  let claim :=
    { claim with
      resource.status.observedGeneration := generation
      retry := RetryState.default }
  let claim := claim.setCondition
    (newCondition "Accepted" .true "RequirementsValid"
      "The current provider policy can satisfy this claim." generation now)
  let claim := claim.setCondition
    (newCondition "Bound" .true "HostAssigned" s!"Host {host.resource.id.text} is assigned."
      generation now)
  let claimReady : Bool := phase = .ready
  let claim := claim.setCondition
    (newCondition "Ready" (if claimReady then .true else .false)
      (if claimReady then "HostReady" else "HostNotReady")
      (if claimReady then "The assigned Host is Ready." else "The assigned Host is not Ready.")
      generation now)
  (claim, host)

/-- `mark_provider_absent`. -/
def markProviderAbsent (claim : HostClaimRecord) (host : HostRecord) (now : Timestamp) :
    HostClaimRecord × HostRecord :=
  (claim.setCondition
    (newCondition "Ready" .false "HostNotReady" "The assigned Host has no provider resource."
      claim.resource.generation now),
   { host with
     resource.status.phase := .pending
     resource.status.providerResourceId := none
     resource.status.observedAt := some now
     retry := RetryState.default }.setCondition
      (newCondition "Ready" .false "ProviderResourceAbsent"
        "No provider resource exists for this Host." 1 now))

/-- `mark_outcome_unknown`. -/
def markOutcomeUnknown (claim : HostClaimRecord) (host : HostRecord) (kind message : String)
    (nowMs : Int64) (now : Timestamp) : HostClaimRecord × HostRecord :=
  (claim.setCondition
    (newCondition "Ready" .unknown kind message claim.resource.generation now),
   { host with
     resource.status.phase := .provisioning
     resource.status.observedAt := some now
     retry :=
      { attempt := nextAttempt host.retry.attempt
        nextReconcileAtUnixMs := some (saturatingAdd nowMs 1000)
        lastErrorKind := some kind
        lastErrorMessage := some message } }.setCondition
      (newCondition "Ready" .unknown kind message 1 now))

/-- `mark_host_failed`. -/
def markHostFailed (claim : HostClaimRecord) (host : HostRecord) (reason message : String)
    (now : Timestamp) : HostClaimRecord × HostRecord :=
  (claim.setCondition
    (newCondition "Ready" .false reason message claim.resource.generation now),
   { host with
     resource.status.phase := .failed
     retry :=
      { attempt := host.retry.attempt
        nextReconcileAtUnixMs := none
        lastErrorKind := some reason
        lastErrorMessage := some message } }.setCondition
      (newCondition "Ready" .false reason message 1 now))

/-- `schedule_claim_provider_error`. -/
def scheduleClaimProviderError (claim : HostClaimRecord) (error : ProviderError) (nowMs : Int64)
    (now : Timestamp) : HostClaimRecord :=
  let claim := { claim with resource.status.observedGeneration := claim.resource.generation }
  match error with
  | .definitive message =>
    { claim with
      retry :=
        { attempt := claim.retry.attempt
          nextReconcileAtUnixMs := some Int64.maxValue
          lastErrorKind := some "ProviderRejected"
          lastErrorMessage := some message } }.setCondition
      (newCondition "Accepted" .false "ProviderRejected" message claim.resource.generation now)
  | .transient message =>
    let attempt := nextAttempt claim.retry.attempt
    { claim with
      retry :=
        { attempt := attempt
          nextReconcileAtUnixMs := some (retryDeadline nowMs attempt)
          lastErrorKind := some "ProviderUnavailable"
          lastErrorMessage := some message } }.setCondition
      (newCondition "Accepted" .unknown "ProviderUnavailable" message claim.resource.generation
        now)

/-- `schedule_host_provider_error`. -/
def scheduleHostProviderError (claim : HostClaimRecord) (host : HostRecord)
    (error : ProviderError) (nowMs : Int64) (now : Timestamp) : HostClaimRecord × HostRecord :=
  match error with
  | .definitive message => markHostFailed claim host "ProviderRejected" message now
  | .transient message =>
    let attempt := nextAttempt host.retry.attempt
    (claim.setCondition
      (newCondition "Ready" .unknown "ProviderUnavailable" message claim.resource.generation now),
     { host with
       retry :=
        { attempt := attempt
          nextReconcileAtUnixMs := some (retryDeadline nowMs attempt)
          lastErrorKind := some "ProviderUnavailable"
          lastErrorMessage := some message } }.setCondition
        (newCondition "Ready" .unknown "ProviderUnavailable" message 1 now))

/-- `schedule_host_retry_only`. -/
def scheduleHostRetryOnly (host : HostRecord) (error : ProviderError) (nowMs : Int64) :
    HostRecord :=
  let (kind, message, terminal) :=
    match error with
    | .definitive message => ("ProviderRejected", message, true)
    | .transient message => ("ProviderUnavailable", message, false)
  let attempt := nextAttempt host.retry.attempt
  { host with
    retry :=
      { attempt := attempt
        nextReconcileAtUnixMs :=
          some (if terminal then Int64.maxValue else retryDeadline nowMs attempt)
        lastErrorKind := some kind
        lastErrorMessage := some message } }

/-- The claim of the `Ok(None)` branch of `reconcile_unbound_claim`, and whether a condition
    changed. -/
def markUnsatisfiable (claim : HostClaimRecord) (now : Timestamp) : HostClaimRecord × Bool :=
  let generation := claim.resource.generation
  let accepted := setCondition claim.resource.status.conditions
    (newCondition "Accepted" .false "Unsatisfiable"
      "No provider plan can satisfy the requested allocatable resources." generation now)
  let bound := setCondition accepted.1
    (newCondition "Bound" .false "HostPending" "No Host has been assigned." generation now)
  let ready := setCondition bound.1
    (newCondition "Ready" .false "HostNotReady" "No Ready Host is assigned." generation now)
  ({ claim with
     resource.status.observedGeneration := generation
     resource.status.conditions := ready.1
     retry := RetryState.default },
   accepted.2 || bound.2 || ready.2)

/-- The text of an ownership conflict. -/
def ownershipConflictMessage (expected found : String) : String :=
  s!"Host recorded provider resource {expected}, but ownership lookup returned {found}."

/-- The recorded resource id, where it differs from the observed one: the guard of the ownership
    conflict branch. -/
def recordedElsewhere (host : HostRecord) (resource : ProviderResource) : Option String :=
  host.resource.status.providerResourceId.filter fun expected => expected ≠ resource.id

end ControlPlane
