import ControlPlane.Controller.Status
import ControlPlane.Storage.Specs

/-!
# What a status update publishes

`reports` reads the status a record publishes under a condition type. The lemmas say what every
status update of the controller leaves alone and what it publishes; later proofs use these and
never open an update again.
-/

namespace ControlPlane

/-- The condition types every stored claim publishes. -/
def claimConditionTypes : List String := ["Accepted", "Bound", "Ready"]

/-- The condition types every stored Host publishes. -/
def hostConditionTypes : List String := ["Ready"]

namespace HostClaimRecord

variable {claim : HostClaimRecord} {next : Condition} {conditionType : String}

/-- The status a claim publishes under a condition type. -/
def reports (claim : HostClaimRecord) (conditionType : String) : Option ConditionStatus :=
  conditionStatus claim.resource.status.conditions conditionType

/-- The claim publishes the three types. -/
def Typed (claim : HostClaimRecord) : Prop :=
  conditionTypes claim.resource.status.conditions = claimConditionTypes

theorem Typed.setCondition (h : claim.Typed) (hnext : next.conditionType ∈ claimConditionTypes) :
    (claim.setCondition next).Typed := by
  unfold Typed HostClaimRecord.setCondition at *
  rw [conditionTypes_setCondition (h ▸ hnext), h]

theorem reports_setCondition (h : claim.Typed) (hnext : next.conditionType ∈ claimConditionTypes) :
    (claim.setCondition next).reports conditionType =
      if conditionType = next.conditionType then some next.status
      else claim.reports conditionType := by
  unfold reports HostClaimRecord.setCondition
  rw [← show conditionTypes claim.resource.status.conditions = claimConditionTypes from h] at hnext
  split
  · rename_i heq
    rw [heq]
    exact conditionStatus_setCondition_self hnext
  · exact conditionStatus_setCondition_ne hnext ‹_›

end HostClaimRecord

namespace HostRecord

variable {host : HostRecord} {next : Condition}

/-- The status a Host publishes under a condition type. -/
def reports (host : HostRecord) (conditionType : String) : Option ConditionStatus :=
  conditionStatus host.resource.status.conditions conditionType

/-- The Host publishes the one type. -/
def Typed (host : HostRecord) : Prop :=
  conditionTypes host.resource.status.conditions = hostConditionTypes

theorem Typed.setCondition (h : host.Typed) (hnext : next.conditionType = "Ready") :
    (host.setCondition next).Typed := by
  have hmem : next.conditionType ∈ hostConditionTypes := by simp [hnext, hostConditionTypes]
  unfold Typed HostRecord.setCondition at *
  rw [conditionTypes_setCondition (h ▸ hmem), h]

theorem reports_setCondition (h : host.Typed) (hnext : next.conditionType = "Ready") :
    (host.setCondition next).reports "Ready" = some next.status := by
  have hmem : next.conditionType ∈ hostConditionTypes := by simp [hnext, hostConditionTypes]
  rw [← show conditionTypes host.resource.status.conditions = hostConditionTypes from h] at hmem
  rw [← hnext]
  exact conditionStatus_setCondition_self hmem

/-- Readiness agrees with the phase: `Ready` is True exactly when the phase is ready and no
    provider error is outstanding, and only with a recorded provider resource. -/
structure Consistent (host : HostRecord) : Prop where
  ready : host.reports "Ready" = some .true ↔
    host.resource.status.phase = .ready ∧ host.retry.lastErrorKind = none
  recorded : host.reports "Ready" = some .true →
    host.resource.status.providerResourceId.isSome

end HostRecord

/-! ## Publishing a Host and its claim -/

/-- What `updated` is to the claim and the Host it was computed from: the same two resources
    with other statuses, which agree on readiness. -/
structure Publishes (claim : HostClaimRecord) (host : HostRecord)
    (updated : HostClaimRecord × HostRecord) : Prop where
  claimKept : claim.withStatus updated.1 = updated.1
  hostKept : host.withStatus updated.2 = updated.2
  claimTyped : updated.1.Typed
  hostTyped : updated.2.Typed
  agree : updated.1.reports "Ready" = updated.2.reports "Ready"
  consistent : updated.2.Consistent
  accepted : claim.reports "Accepted" = some .true → updated.1.reports "Accepted" = some .true
  bound : claim.reports "Bound" = some .true → updated.1.reports "Bound" = some .true
  observed : claim.resource.status.observedGeneration = claim.resource.generation →
    updated.1.resource.status.observedGeneration = claim.resource.generation

section Publishes

variable {claim : HostClaimRecord} {host : HostRecord}

/-- Setting the readiness of a claim and of a Host that has been given another status. -/
theorem publishes_setCondition {host' : HostRecord} {forClaim forHost : Condition}
    (hclaim : claim.Typed) (hhost : host'.Typed) (hkept : host.withStatus host' = host')
    (hforClaim : forClaim.conditionType = "Ready") (hforHost : forHost.conditionType = "Ready")
    (hstatus : forClaim.status = forHost.status)
    (hready : forHost.status = .true ↔
      host'.resource.status.phase = .ready ∧ host'.retry.lastErrorKind = none)
    (hrecorded : forHost.status = .true → host'.resource.status.providerResourceId.isSome) :
    Publishes claim host (claim.setCondition forClaim, host'.setCondition forHost) := by
  have hmem : forClaim.conditionType ∈ claimConditionTypes := by
    simp [hforClaim, claimConditionTypes]
  have hreports : (host'.setCondition forHost).reports "Ready" = some forHost.status :=
    HostRecord.reports_setCondition hhost hforHost
  refine ⟨rfl, ?_, hclaim.setCondition hmem, hhost.setCondition hforHost, ?_, ⟨?_, ?_⟩, ?_, ?_,
    fun h => h⟩
  · rw [← hkept]
    rfl
  · rw [hreports, HostClaimRecord.reports_setCondition hclaim hmem, if_pos hforClaim.symm, hstatus]
  · rw [hreports, Option.some_inj]
    exact hready
  · rw [hreports, Option.some_inj]
    exact hrecorded
  · rw [HostClaimRecord.reports_setCondition hclaim hmem, hforClaim, if_neg (by decide)]
    exact id
  · rw [HostClaimRecord.reports_setCondition hclaim hmem, hforClaim, if_neg (by decide)]
    exact id

theorem publishes_markProviderAbsent (hclaim : claim.Typed) (hhost : host.Typed)
    (now : Timestamp) : Publishes claim host (markProviderAbsent claim host now) := by
  exact publishes_setCondition hclaim hhost rfl rfl rfl rfl (by simp [newCondition])
    (by simp [newCondition])

theorem publishes_markOutcomeUnknown (hclaim : claim.Typed) (hhost : host.Typed)
    (kind message : String) (nowMs : Int64) (now : Timestamp) :
    Publishes claim host (markOutcomeUnknown claim host kind message nowMs now) := by
  exact publishes_setCondition hclaim hhost rfl rfl rfl rfl (by simp [newCondition])
    (by simp [newCondition])

theorem publishes_markHostFailed (hclaim : claim.Typed) (hhost : host.Typed)
    (reason message : String) (now : Timestamp) :
    Publishes claim host (markHostFailed claim host reason message now) := by
  exact publishes_setCondition hclaim hhost rfl rfl rfl rfl (by simp [newCondition])
    (by simp [newCondition])

theorem publishes_scheduleHostProviderError (hclaim : claim.Typed) (hhost : host.Typed)
    (error : ProviderError) (nowMs : Int64) (now : Timestamp) :
    Publishes claim host (scheduleHostProviderError claim host error nowMs now) := by
  cases error with
  | definitive message => exact publishes_markHostFailed hclaim hhost _ _ _
  | transient message =>
    exact publishes_setCondition hclaim hhost rfl rfl rfl rfl (by simp [newCondition])
      (by simp [newCondition])

@[simp] theorem newCondition_conditionType (conditionType : String) (status : ConditionStatus)
    (reason message : String) (generation : UInt64) (now : Timestamp) :
    (newCondition conditionType status reason message generation now).conditionType =
      conditionType := rfl

@[simp] theorem newCondition_status (conditionType : String) (status : ConditionStatus)
    (reason message : String) (generation : UInt64) (now : Timestamp) :
    (newCondition conditionType status reason message generation now).status = status := rfl

/-- Three conditions set one after the other on a claim. -/
theorem HostClaimRecord.reports_setConditions (hclaim : claim.Typed)
    {accepted bound ready : Condition} (haccepted : accepted.conditionType = "Accepted")
    (hbound : bound.conditionType = "Bound") (hready : ready.conditionType = "Ready") :
    let claim' := ((claim.setCondition accepted).setCondition bound).setCondition ready
    claim'.Typed ∧ claim'.reports "Accepted" = some accepted.status ∧
      claim'.reports "Bound" = some bound.status ∧ claim'.reports "Ready" = some ready.status := by
  have haccepted' : accepted.conditionType ∈ claimConditionTypes := by
    simp [haccepted, claimConditionTypes]
  have hbound' : bound.conditionType ∈ claimConditionTypes := by
    simp [hbound, claimConditionTypes]
  have hready' : ready.conditionType ∈ claimConditionTypes := by
    simp [hready, claimConditionTypes]
  have htyped := hclaim.setCondition haccepted'
  have htyped' := htyped.setCondition hbound'
  refine ⟨htyped'.setCondition hready', ?_, ?_, ?_⟩
  · rw [reports_setCondition htyped' hready', hready, if_neg (by decide),
      reports_setCondition htyped hbound', hbound, if_neg (by decide),
      reports_setCondition hclaim haccepted', haccepted, if_pos rfl]
  · rw [reports_setCondition htyped' hready', hready, if_neg (by decide),
      reports_setCondition htyped hbound', hbound, if_pos rfl]
  · rw [reports_setCondition htyped' hready', hready, if_pos rfl]

/-- The three conditions of a bound claim beside those of its observed Host. -/
theorem publishes_observed (hclaim : claim.Typed) {host' : HostRecord} (hhost : host'.Typed)
    (hkept : host.withStatus host' = host') {accepted bound ready forHost : Condition}
    (haccepted : accepted.conditionType = "Accepted" ∧ accepted.status = .true)
    (hbound : bound.conditionType = "Bound" ∧ bound.status = .true)
    (hready : ready.conditionType = "Ready" ∧ forHost.conditionType = "Ready" ∧
      ready.status = forHost.status)
    (hphase : forHost.status = .true ↔ host'.resource.status.phase = .ready)
    (hrecorded : host'.resource.status.providerResourceId.isSome)
    (hretry : host'.retry = RetryState.default) :
    Publishes claim host
      ((({ claim with
            resource.status.observedGeneration := claim.resource.generation
            retry := RetryState.default }.setCondition accepted).setCondition bound).setCondition
          ready,
        host'.setCondition forHost) := by
  have hclaim' : { claim with
      resource.status.observedGeneration := claim.resource.generation
      retry := RetryState.default }.Typed := hclaim
  obtain ⟨htyped, hisAccepted, hisBound, hisReady⟩ :=
    HostClaimRecord.reports_setConditions hclaim' haccepted.1 hbound.1 hready.1
  have hreports : (host'.setCondition forHost).reports "Ready" = some forHost.status :=
    HostRecord.reports_setCondition hhost hready.2.1
  refine ⟨rfl, ?_, htyped, hhost.setCondition hready.2.1, ?_, ⟨?_, fun _ => hrecorded⟩, ?_, ?_,
    fun _ => rfl⟩
  · rw [← hkept]
    rfl
  · rw [hisReady, hreports, hready.2.2]
  · have hnone : (host'.setCondition forHost).retry.lastErrorKind = none := by
      change host'.retry.lastErrorKind = none
      rw [hretry]
      rfl
    rw [hreports, Option.some_inj, hphase, hnone]
    simp [HostRecord.setCondition]
  · rw [hisAccepted, haccepted.2]
    exact fun _ => rfl
  · rw [hisBound, hbound.2]
    exact fun _ => rfl

theorem publishes_applyProviderObservation (hclaim : claim.Typed) (hhost : host.Typed)
    (resource : ProviderResource) (now : Timestamp) :
    Publishes claim host (applyProviderObservation claim host resource now) := by
  obtain ⟨id, hostId, lifecycle⟩ := resource
  cases lifecycle
  all_goals
    refine publishes_observed hclaim (by exact hhost) rfl ⟨rfl, rfl⟩ ⟨rfl, rfl⟩ ⟨rfl, rfl, rfl⟩
      ?_ rfl rfl
    simp [newCondition]

end Publishes

open Storage

/-! ## Claims that tell the truth -/

/-- What a stored claim says about itself: it is Accepted and Bound exactly when it has a Host,
    and has then been observed; once its deletion was requested it is not Ready and is due. -/
structure HostClaimRecord.Truthful (claim : HostClaimRecord) : Prop where
  typed : claim.Typed
  deleting : claim.resource.deletionTimestamp.isSome →
    claim.reports "Ready" = some .false ∧ claim.retry.nextReconcileAtUnixMs = none
  bound : claim.resource.status.hostId.isSome ↔ claim.reports "Bound" = some .true
  accepted : claim.resource.status.hostId.isSome ↔ claim.reports "Accepted" = some .true
  observed : claim.resource.status.hostId.isSome →
    claim.resource.status.observedGeneration = claim.resource.generation

section Truthful

variable {claim : HostClaimRecord}

theorem truthful_initialClaim (id : HostClaimId) (spec : HostClaimSpec) (now : Timestamp) :
    ({ resource := initialClaim id spec now, retry := RetryState.default } :
      HostClaimRecord).Truthful := by
  refine ⟨rfl, fun h => ?_, ?_, ?_, fun h => ?_⟩ <;>
    simp [initialClaim, HostClaimRecord.reports, conditionStatus, newCondition] at *

theorem typed_requestDeletion (h : claim.Typed) (now : Timestamp) :
    (requestDeletion claim now).Typed ∧
      ∀ conditionType, (requestDeletion claim now).reports conditionType =
        if conditionType = "Ready" then some .false else claim.reports conditionType := by
  have hclaim : { claim with
      resource.deletionTimestamp := some now
      resource.status.observedGeneration := claim.resource.generation
      retry := RetryState.default }.Typed := h
  have hmem : "Ready" ∈ claimConditionTypes := by decide
  exact ⟨hclaim.setCondition hmem,
    fun conditionType => HostClaimRecord.reports_setCondition hclaim hmem⟩

theorem truthful_requestDeletion (h : claim.Truthful) (now : Timestamp) :
    (requestDeletion claim now).Truthful := by
  obtain ⟨htyped, hreports⟩ := typed_requestDeletion h.typed now
  refine ⟨htyped, fun _ => ⟨?_, rfl⟩, ?_, ?_, fun _ => rfl⟩
  · rw [hreports, if_pos rfl]
  · rw [hreports, if_neg (by decide)]
    exact h.bound
  · rw [hreports, if_neg (by decide)]
    exact h.accepted

theorem truthful_assignHost (h : claim.Typed) (hlive : claim.resource.deletionTimestamp = none)
    (hostId : HostId) (now : Timestamp) :
    (assignHost claim hostId now).Truthful ∧
      (assignHost claim hostId now).reports "Ready" = some .false := by
  have hclaim : { claim with
      resource.status.hostId := some hostId
      resource.status.observedGeneration := claim.resource.generation
      retry := RetryState.default }.Typed := h
  obtain ⟨htyped, haccepted, hbound, hready⟩ := HostClaimRecord.reports_setConditions hclaim
    (newCondition_conditionType "Accepted" .true "RequirementsValid"
      "The current provider policy can satisfy this claim." claim.resource.generation now)
    (newCondition_conditionType "Bound" .true "HostAssigned"
      s!"Host {hostId.text} is assigned." claim.resource.generation now)
    (newCondition_conditionType "Ready" .false "HostNotReady"
      "The assigned Host is not Ready yet." claim.resource.generation now)
  refine ⟨⟨htyped, fun hdeleting => ?_, ?_, ?_, fun _ => rfl⟩, hready⟩
  · have hnone : (assignHost claim hostId now).resource.deletionTimestamp = none := hlive
    rw [hnone] at hdeleting
    cases hdeleting
  · exact ⟨fun _ => hbound, fun _ => rfl⟩
  · exact ⟨fun _ => haccepted, fun _ => rfl⟩

/-- A claim without a Host that is neither Accepted nor Bound. -/
theorem truthful_of_unbound (htyped : claim.Typed)
    (hlive : claim.resource.deletionTimestamp = none)
    (hunbound : claim.resource.status.hostId = none)
    (haccepted : claim.reports "Accepted" ≠ some .true)
    (hbound : claim.reports "Bound" ≠ some .true) : claim.Truthful := by
  refine ⟨htyped, ?_, ?_, ?_, ?_⟩ <;> simp [hlive, hunbound, haccepted, hbound]

/-- A claim without a Host that is told it is not accepted. -/
theorem truthful_setAccepted {next : Condition} (h : claim.Truthful)
    (hlive : claim.resource.deletionTimestamp = none)
    (hunbound : claim.resource.status.hostId = none) (hnext : next.conditionType = "Accepted")
    (hstatus : next.status ≠ .true) (observedGeneration : UInt64) (retry : RetryState) :
    ({ claim with
        resource.status.observedGeneration := observedGeneration
        retry := retry }.setCondition next).Truthful := by
  have hclaim : { claim with
      resource.status.observedGeneration := observedGeneration
      retry := retry }.Typed := h.typed
  have hmem : next.conditionType ∈ claimConditionTypes := by simp [hnext, claimConditionTypes]
  have hbound := h.bound
  apply truthful_of_unbound (hclaim.setCondition hmem) hlive hunbound
  · rw [HostClaimRecord.reports_setCondition hclaim hmem, if_pos hnext.symm]
    simpa using hstatus
  · rw [HostClaimRecord.reports_setCondition hclaim hmem, hnext, if_neg (by decide)]
    rw [hunbound] at hbound
    exact fun hreports => absurd (hbound.mpr hreports) (by decide)

theorem truthful_scheduleClaimProviderError (h : claim.Truthful)
    (hlive : claim.resource.deletionTimestamp = none)
    (hunbound : claim.resource.status.hostId = none) (error : ProviderError) (nowMs : Int64)
    (now : Timestamp) : (scheduleClaimProviderError claim error nowMs now).Truthful := by
  cases error with
  | definitive message =>
    exact truthful_setAccepted h hlive hunbound rfl (by simp) _ _
  | transient message =>
    exact truthful_setAccepted h hlive hunbound rfl (by simp) _ _

theorem truthful_markUnsatisfiable (h : claim.Truthful)
    (hlive : claim.resource.deletionTimestamp = none)
    (hunbound : claim.resource.status.hostId = none) (now : Timestamp) :
    (markUnsatisfiable claim now).1.Truthful ∧
      (markUnsatisfiable claim now).1.reports "Accepted" = some .false := by
  have hclaim : { claim with
      resource.status.observedGeneration := claim.resource.generation
      retry := RetryState.default }.Typed := h.typed
  obtain ⟨htyped, haccepted, hbound, -⟩ := HostClaimRecord.reports_setConditions hclaim
    (newCondition_conditionType "Accepted" .false "Unsatisfiable"
      "No provider plan can satisfy the requested allocatable resources."
      claim.resource.generation now)
    (newCondition_conditionType "Bound" .false "HostPending" "No Host has been assigned."
      claim.resource.generation now)
    (newCondition_conditionType "Ready" .false "HostNotReady" "No Ready Host is assigned."
      claim.resource.generation now)
  refine ⟨truthful_of_unbound htyped hlive hunbound ?_ ?_, haccepted⟩
  · exact fun hreports => by cases haccepted.symm.trans hreports
  · exact fun hreports => by cases hbound.symm.trans hreports

/-- A status published for a bound claim. -/
theorem truthful_of_publishes {host : HostRecord} {updated : HostClaimRecord × HostRecord}
    (h : claim.Truthful) (hpublishes : Publishes claim host updated)
    (hbound : claim.resource.status.hostId.isSome)
    (hdeleting : claim.resource.deletionTimestamp.isSome →
      updated.1.reports "Ready" = some .false ∧ updated.1.retry.nextReconcileAtUnixMs = none) :
    updated.1.Truthful := by
  have hkept := hpublishes.claimKept
  have hdeletion : updated.1.resource.deletionTimestamp = claim.resource.deletionTimestamp := by
    rw [← hkept]
    rfl
  have hhostId : updated.1.resource.status.hostId = claim.resource.status.hostId := by
    rw [← hkept]
    rfl
  have hgeneration : updated.1.resource.generation = claim.resource.generation := by
    rw [← hkept]
    rfl
  refine ⟨hpublishes.claimTyped, ?_, ?_, ?_, ?_⟩
  · rw [hdeletion]
    exact hdeleting
  · rw [hhostId]
    exact ⟨fun _ => hpublishes.bound (h.bound.mp hbound), fun _ => hbound⟩
  · rw [hhostId]
    exact ⟨fun _ => hpublishes.accepted (h.accepted.mp hbound), fun _ => hbound⟩
  · rw [hgeneration]
    exact fun _ => hpublishes.observed (h.observed hbound)

end Truthful

end ControlPlane
