import ControlPlane.Controller.Status
import ControlPlane.Error
import ControlPlane.Interaction.Program

/-!
# The reconciliation step

`HostController::reconcile_once` and the methods below it, as programs over the effects they
await: the calls to `Storage` and to the provider. Clock readings, the spans that name the claim
a stretch of work is about, and `ReconcileHandle::wake` are effects as well, so that the events
of a run show them.
-/

namespace ControlPlane

open Interaction

/-- The spans of `reconcile_once`. -/
inductive Span where
  | reconcileHostClaimDeletion (claimId : HostClaimId)
  | reconcileHost (claimId : HostClaimId) (hostId : HostId)
  | reconcileHostClaim (claimId : HostClaimId)
  deriving DecidableEq, Repr

/-- The claim a span is about. -/
def Span.claimId : Span → HostClaimId
  | .reconcileHostClaimDeletion claimId => claimId
  | .reconcileHost claimId _ => claimId
  | .reconcileHostClaim claimId => claimId

/-- What the controller reaches outside itself. -/
inductive Effect where
  | nowUnixMs
  | nowTimestamp
  | wake
  | enterSpan (span : Span)
  | listClaims
  | getHost (hostId : HostId)
  | ensureHost (claimId : HostClaimId) (planId : String) (resources : HostResources)
  | saveHost (record : HostRecord)
  | saveClaimStatus (record : HostClaimRecord)
  | finalizeClaim (claimId : HostClaimId)
  | provider (call : ProviderCall)
  deriving DecidableEq

/-- What an effect answers. -/
abbrev Answer : Effect → Type
  | .nowUnixMs => Int64
  | .nowTimestamp => Timestamp
  | .wake => Unit
  | .enterSpan _ => Unit
  | .listClaims => Except AppError (List HostClaimRecord)
  | .getHost _ => Except AppError HostRecord
  | .ensureHost _ _ _ => Except AppError HostRecord
  | .saveHost _ => Except AppError Unit
  | .saveClaimStatus _ => Except AppError Bool
  | .finalizeClaim _ => Except AppError Unit
  | .provider call => ProviderAnswer call

instance : (effect : Effect) → DecidableEq (Answer effect)
  | .nowUnixMs => inferInstanceAs (DecidableEq Int64)
  | .nowTimestamp => inferInstanceAs (DecidableEq Timestamp)
  | .wake | .enterSpan _ => inferInstanceAs (DecidableEq Unit)
  | .listClaims => inferInstanceAs (DecidableEq (Except AppError (List HostClaimRecord)))
  | .getHost _ => inferInstanceAs (DecidableEq (Except AppError HostRecord))
  | .ensureHost _ _ _ => inferInstanceAs (DecidableEq (Except AppError HostRecord))
  | .saveHost _ => inferInstanceAs (DecidableEq (Except AppError Unit))
  | .saveClaimStatus _ => inferInstanceAs (DecidableEq (Except AppError Bool))
  | .finalizeClaim _ => inferInstanceAs (DecidableEq (Except AppError Unit))
  | .provider call => inferInstanceAs (DecidableEq (ProviderAnswer call))

/-- A controller method: a program that may stop with an `AppError`. -/
abbrev Controller := ExceptT AppError (Program Effect Answer)

namespace Controller

/-- Await an effect and look at its answer. -/
def ask (effect : Effect) : Controller (Answer effect) :=
  ExceptT.lift (Program.perform effect)

/-- Await a fallible call and return its error, as `?` does. -/
def attempt {α : Type} (program : Program Effect Answer (Except AppError α)) : Controller α :=
  ExceptT.mk program

def listClaims : Controller (List HostClaimRecord) :=
  attempt (Program.perform Effect.listClaims)

def getHost (hostId : HostId) : Controller HostRecord :=
  attempt (Program.perform (Effect.getHost hostId))

def saveHost (record : HostRecord) : Controller Unit :=
  attempt (Program.perform (Effect.saveHost record))

def finalizeClaim (claimId : HostClaimId) : Controller Unit :=
  attempt (Program.perform (Effect.finalizeClaim claimId))

/-- `HostController::persist_claim_status`. -/
def persistClaimStatus (claim : HostClaimRecord) : Controller Unit := do
  let saved ← attempt (Program.perform (Effect.saveClaimStatus claim))
  if !saved then
    ask .wake

/-- `HostController::reconcile_unbound_claim`. -/
def reconcileUnboundClaim (claim : HostClaimRecord) (nowMs : Int64) :
    Controller ReconcileResult := do
  match ← ask (.provider (.selectPlan claim.resource.spec.resources)) with
  | .ok (some plan) =>
    match ← ask (.ensureHost claim.resource.id plan.id plan.resources) with
    | .ok _ => return .progress
    | .error (.conflict _ _ _) | .error (.notFound _ _) =>
      ask .wake
      return .idle
    | .error error => throw error
  | .ok none =>
    let now ← ask .nowTimestamp
    let (claim, changed) := markUnsatisfiable claim now
    if changed then
      persistClaimStatus claim
      return .progress
    else
      return .idle
  | .error error =>
    let now ← ask .nowTimestamp
    persistClaimStatus (scheduleClaimProviderError claim error nowMs now)
    return .progress

/-- The two saves that publish a Host and its claim. -/
def publish (updated : HostClaimRecord × HostRecord) : Controller Unit := do
  saveHost updated.2
  persistClaimStatus updated.1

/-- `HostController::reconcile_host`. -/
def reconcileHost (claim : HostClaimRecord) (host : HostRecord) (nowMs : Int64) :
    Controller ReconcileResult := do
  match ← ask (.provider (.observe host.resource.id)) with
  | .ok (.present resource) =>
    if let some expected := recordedElsewhere host resource then
      let now ← ask .nowTimestamp
      publish (markHostFailed claim host "ProviderOwnershipConflict"
        (ownershipConflictMessage expected resource.id) now)
      return .progress
    let unchanged := providerObservationIsStable host resource
    let now ← ask .nowTimestamp
    publish (applyProviderObservation claim host resource now)
    return if unchanged then .idle else .progress
  | .ok .absent =>
    if host.resource.status.providerResourceId.isSome ∨ host.resource.status.phase ≠ .pending then
      let now ← ask .nowTimestamp
      publish (markProviderAbsent claim host now)
      return .progress
    let host :=
      { host with
        resource.status.phase := .provisioning
        retry := RetryState.default }
    saveHost host
    let created ← ask (.provider (.create host.resource.id host.providerPlanId))
    let now ← ask .nowTimestamp
    publish <|
      match created with
      | .ok (.created resource) => applyProviderObservation claim host resource now
      | .ok .outcomeUnknown =>
        markOutcomeUnknown claim host "CreateOutcomeUnknown"
          "The provider may have created the Host. The next step will rediscover it by Host ID."
          nowMs now
      | .error error => scheduleHostProviderError claim host error nowMs now
    return .progress
  | .error error =>
    let now ← ask .nowTimestamp
    publish (scheduleHostProviderError claim host error nowMs now)
    return .progress

/-- The Host once its `delete` was answered. -/
def afterDelete (host : HostRecord) (nowMs : Int64) :
    Except ProviderError DeleteOutcome → HostRecord
  | .ok .deleted => { host with retry := RetryState.default }
  | .ok .outcomeUnknown =>
    { host with
      retry :=
        { attempt := host.retry.attempt
          nextReconcileAtUnixMs := some (saturatingAdd nowMs 1000)
          lastErrorKind := some "DeleteOutcomeUnknown"
          lastErrorMessage :=
            some "The provider may have deleted the Host; rediscovery is required." } }
  | .error error => scheduleHostRetryOnly host error nowMs

/-- `HostController::reconcile_deleting_claim`. -/
def reconcileDeletingClaim (claim : HostClaimRecord) (nowMs : Int64) :
    Controller ReconcileResult := do
  match claim.resource.status.hostId with
  | none =>
    finalizeClaim claim.resource.id
    return .progress
  | some hostId =>
    let host ← getHost hostId
    if !host.retry.isDue nowMs then
      return .idle
    match ← ask (.provider (.observe host.resource.id)) with
    | .ok .absent =>
      finalizeClaim claim.resource.id
      return .progress
    | .ok (.present resource) =>
      if let some expected := recordedElsewhere host resource then
        let now ← ask .nowTimestamp
        let (claim, host) := markHostFailed claim host "ProviderOwnershipConflict"
          (ownershipConflictMessage expected resource.id) now
        publish (claim, { host with retry.nextReconcileAtUnixMs := some Int64.maxValue })
        return .progress
      let now ← ask .nowTimestamp
      let host :=
        { host with
          resource.status.phase := .deleting
          resource.status.providerResourceId := some resource.id
          resource.status.observedAt := some now
          retry := RetryState.default }
      saveHost host
      let deleted ← ask (.provider (.delete host.resource.id))
      saveHost (afterDelete host nowMs deleted)
      return .progress
    | .error error =>
      saveHost (scheduleHostRetryOnly host error nowMs)
      return .progress

/-- The first loop of `reconcile_once`: claims being deleted. -/
def reconcileDeletions (nowMs : Int64) : List HostClaimRecord → Controller ReconcileResult
  | [] => return .idle
  | claim :: rest => do
    ask (.enterSpan (.reconcileHostClaimDeletion claim.resource.id))
    match ← reconcileDeletingClaim claim nowMs with
    | .progress => return .progress
    | .idle => reconcileDeletions nowMs rest

/-- The second loop of `reconcile_once`: claims in use. -/
def reconcileClaims (nowMs : Int64) : List HostClaimRecord → Controller ReconcileResult
  | [] => return .idle
  | claim :: rest => do
    match claim.resource.status.hostId with
    | some hostId =>
      let host ← getHost hostId
      if !host.retry.isDue nowMs ∨ host.resource.status.phase = .failed then
        reconcileClaims nowMs rest
      else
        ask (.enterSpan (.reconcileHost claim.resource.id hostId))
        match ← reconcileHost claim host nowMs with
        | .progress => return .progress
        | .idle => reconcileClaims nowMs rest
    | none =>
      if !claim.retry.isDue nowMs then
        reconcileClaims nowMs rest
      else
        ask (.enterSpan (.reconcileHostClaim claim.resource.id))
        match ← reconcileUnboundClaim claim nowMs with
        | .progress => return .progress
        | .idle => reconcileClaims nowMs rest

/-- The claims the first loop goes through. -/
def dueDeletions (nowMs : Int64) (claims : List HostClaimRecord) : List HostClaimRecord :=
  claims.filter fun claim =>
    claim.resource.deletionTimestamp.isSome && claim.retry.isDue nowMs

/-- The claims the second loop goes through. -/
def liveClaims (claims : List HostClaimRecord) : List HostClaimRecord :=
  claims.filter fun claim => claim.resource.deletionTimestamp.isNone

/-- `HostController::reconcile_once`. -/
def reconcileOnce : Controller ReconcileResult := do
  let nowMs ← ask .nowUnixMs
  let claims ← listClaims
  match ← reconcileDeletions nowMs (dueDeletions nowMs claims) with
  | .progress => return .progress
  | .idle => reconcileClaims nowMs (liveClaims claims)

/-- Going on after a claim, unless there was progress. -/
def thenTurns (next : Controller ReconcileResult) : ReconcileResult → Controller ReconcileResult
  | .progress => return .progress
  | .idle => next

end Controller

end ControlPlane
