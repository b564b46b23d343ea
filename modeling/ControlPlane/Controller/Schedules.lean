import ControlPlane.Controller.Changes
import ControlPlane.Controller.Untimed
import ControlPlane.Deadlines

/-!
# Deadlines the controller writes

Every retry state written at an await point is clear, ends within a minute of the clock reading
of its pass, or parks the record at `i64::MAX`. A record is parked for a definitive provider
error, or, in the deletion flow, for an ownership conflict; what is published along with that is
said here too.
-/

namespace ControlPlane

open Interaction

/-! ## Retry states -/

/-- A retry state that the controller comes back to by itself. -/
inductive Ahead (nowMs : Int64) (retry : RetryState) : Prop where
  | clear : retry.nextReconcileAtUnixMs = none → Ahead nowMs retry
  | within {delay : Int64} : 0 ≤ delay.toInt → delay.toInt ≤ 60000 →
      retry.nextReconcileAtUnixMs = some (saturatingAdd nowMs delay) → Ahead nowMs retry

/-- A retry state with the deadline that never comes. -/
def RetryState.Parked (retry : RetryState) : Prop :=
  retry.nextReconcileAtUnixMs = some Int64.maxValue

instance (retry : RetryState) : Decidable retry.Parked :=
  inferInstanceAs (Decidable (_ = _))

theorem ahead_default (nowMs : Int64) : Ahead nowMs RetryState.default := .clear rfl

theorem ahead_retryDeadline {nowMs : Int64} {retry : RetryState} {attempt : UInt32}
    (h : retry.nextReconcileAtUnixMs = some (retryDeadline nowMs attempt)) :
    Ahead nowMs retry := by
  have hbounds := retryDelay_bounds attempt
  exact .within (by omega) hbounds.2 h

/-- Far enough from the end of the clock's range, nothing ahead is parked. -/
theorem Ahead.le {nowMs deadline : Int64} {retry : RetryState} (h : Ahead nowMs retry)
    (hnow : nowMs.toInt ≤ Int64.maxValue.toInt - 60000)
    (hdeadline : retry.nextReconcileAtUnixMs = some deadline) :
    deadline.toInt ≤ nowMs.toInt + 60000 := by
  cases h with
  | clear hnone =>
    rw [hnone] at hdeadline
    cases hdeadline
  | within hpos hle hsum =>
    rw [hsum] at hdeadline
    cases hdeadline
    rw [toInt_saturatingAdd_of_le hpos hle hnow]
    omega

theorem Ahead.not_parked {nowMs : Int64} {retry : RetryState} (h : Ahead nowMs retry)
    (hnow : nowMs.toInt < Int64.maxValue.toInt - 60000) : ¬ retry.Parked := by
  intro hparked
  have hle := h.le (by omega) hparked
  omega

/-! ## Hosts -/

variable {σ : Type} {P : ProviderModel σ} {nowMs : Int64} {claim : HostClaimRecord}
  {host stored record : HostRecord} {log events : Happened} {db : Database}

/-- What a parked or failed Host publishes: that it is not Ready, and the error it stopped at. -/
def HostRecord.Explained (host : HostRecord) : Prop :=
  ∃ kind condition, host.retry.lastErrorKind = some kind ∧
    kind ∈ ["ProviderRejected", "ProviderOwnershipConflict"] ∧
    publishedAs host.resource.status.conditions "Ready" = some condition ∧
    condition.status ≠ .true ∧ condition.reason = kind

/-- The last answer of the provider was a definitive error. -/
def Rejected : Happened → Prop
  | ⟨.provider (.observe _), .error (.definitive _)⟩ :: _ => True
  | ⟨.provider (.delete _), .error (.definitive _)⟩ :: _ => True
  | _ => False

theorem HostRecord.Typed.publishedAs_setCondition {next : Condition} (h : host.Typed)
    (hnext : next.conditionType = "Ready") :
    publishedAs (host.setCondition next).resource.status.conditions "Ready" =
      some next.untimed := by
  have hmem : next.conditionType ∈ conditionTypes host.resource.status.conditions := by
    rw [show conditionTypes host.resource.status.conditions = hostConditionTypes from h]
    simp [hnext, hostConditionTypes]
  rw [← hnext]
  exact publishedAs_setCondition_self hmem

theorem explained_markHostFailed (claim : HostClaimRecord) (hhost : host.Typed) {reason : String}
    (hreason : reason ∈ ["ProviderRejected", "ProviderOwnershipConflict"]) (message : String)
    (now : Timestamp) : (markHostFailed claim host reason message now).2.Explained := by
  have htyped : { host with
      resource.status.phase := .failed
      retry :=
        { attempt := host.retry.attempt
          nextReconcileAtUnixMs := none
          lastErrorKind := some reason
          lastErrorMessage := some message } : HostRecord }.Typed := hhost
  exact ⟨reason, _, rfl, hreason, htyped.publishedAs_setCondition rfl, nofun, rfl⟩

/-- What `reconcile_host` publishes is ahead, and explained if it failed. -/
theorem Publishing.ahead {now : Timestamp} {base : Happened}
    {updated : HostClaimRecord × HostRecord}
    (h : Publishing claim host nowMs now base events stored updated) (hhost : host.Typed)
    (hnotFailed : host.resource.status.phase ≠ .failed) :
    Ahead nowMs updated.2.retry ∧
      (updated.2.resource.status.phase = .failed → updated.2.Explained) := by
  have hintent : (provisioningIntent host).Typed := hhost
  cases h with
  | conflict => exact ⟨.clear rfl, fun _ => explained_markHostFailed claim hhost (by simp) _ _⟩
  | @observed resource | @created resource =>
    refine ⟨.clear rfl, fun hfailed => ?_⟩
    obtain ⟨id, hostId, lifecycle⟩ := resource
    cases lifecycle <;> cases hfailed
  | absent => exact ⟨.clear rfl, fun hfailed => by cases hfailed⟩
  | createUnknown =>
    exact ⟨.within (by decide) (by decide) rfl, fun hfailed => by cases hfailed⟩
  | @observeError error =>
    cases error with
    | definitive => exact ⟨.clear rfl, fun _ => explained_markHostFailed claim hhost (by simp) _ _⟩
    | transient =>
      exact ⟨ahead_retryDeadline rfl, fun hfailed => absurd hfailed hnotFailed⟩
  | @createError error =>
    cases error with
    | definitive =>
      exact ⟨.clear rfl, fun _ => explained_markHostFailed claim hintent (by simp) _ _⟩
    | transient => exact ⟨ahead_retryDeadline rfl, fun hfailed => by cases hfailed⟩

/-- The claim of a Host is being deleted. -/
def Database.Releasing (db : Database) (host : HostRecord) : Prop :=
  ∃ claim, db.claim? host.resource.claimId = some claim ∧
    claim.resource.deletionTimestamp.isSome

/-- How long a Host saved at an await point is left alone, and what it publishes if for ever. -/
inductive HostSchedule (log : Happened) (db : Database) (stored record : HostRecord) : Prop where
  | ahead {nowMs : Int64} : ⟨.nowUnixMs, nowMs⟩ ∈ log → ¬ (InDeletion log ∧ Rejected log) →
      Ahead nowMs record.retry →
      (record.resource.status.phase = .failed → record.Explained ∨ db.Releasing record) →
      HostSchedule log db stored record
  | conflict {nowMs : Int64} : ⟨.nowUnixMs, nowMs⟩ ∈ log → ¬ Rejected log →
      db.Releasing record → record.retry.Parked → record.Explained →
      HostSchedule log db stored record
  | rejected {nowMs : Int64} : ⟨.nowUnixMs, nowMs⟩ ∈ log → InDeletion log → Rejected log →
      db.Releasing record → record.retry.Parked →
      record.retry.lastErrorKind = some "ProviderRejected" →
      record.resource.status.conditions = stored.resource.status.conditions →
      HostSchedule log db stored record

theorem Turn.clock (turn : Turn nowMs claim log db) (hsuffix : log <:+ events) :
    ⟨.nowUnixMs, nowMs⟩ ∈ events := by
  obtain ⟨claims, -, hsnapshot⟩ := turn.snapshot
  exact (hsnapshot.trans hsuffix).subset (by simp)

theorem HostTurn.releasing (turn : HostTurn nowMs claim host stored log db)
    (hdeleting : claim.resource.deletionTimestamp.isSome)
    (howner : record.resource.claimId = host.resource.claimId) : db.Releasing record := by
  refine ⟨claim, ?_, hdeleting⟩
  rw [howner, turn.owner]
  exact turn.stored_of_deleting hdeleting

/-- The deletion flow's retry states. -/
theorem HostSchedule.of_deletion {base : Happened} (turn : HostTurn nowMs claim host stored base db)
    (hdeleting : claim.resource.deletionTimestamp.isSome) (hsuffix : base <:+ log)
    (howner : record.resource.claimId = host.resource.claimId)
    (hnotRejected : ¬ Rejected log) (hahead : Ahead nowMs record.retry) :
    HostSchedule log db stored record :=
  .ahead (turn.toTurn.clock hsuffix) (fun h => hnotRejected h.2) hahead fun _ =>
    .inr (turn.releasing hdeleting howner)

/-- Every Host saved at an await point is scheduled in one of these ways. -/
theorem AwaitPoint.hostSchedule (h : AwaitPoint log db (.saveHost record)) :
    ∃ stored, db.host? record.resource.id = some stored ∧ stored.withStatus record = record ∧
      HostSchedule log db stored record := by
  cases h with
  | @saveDeletionConflict nowMs claim host resource expected now log db turn hdeleting =>
    refine ⟨host, turn.stored, rfl, .conflict (turn.toTurn.clock ⟨[_, _, _, _], rfl⟩) (fun h => h)
      (turn.releasing hdeleting rfl) rfl ?_⟩
    obtain ⟨kind, condition, hkind, hmem, hpublished, hstatus⟩ :=
      explained_markHostFailed claim turn.typed (by simp :
        "ProviderOwnershipConflict" ∈ ["ProviderRejected", "ProviderOwnershipConflict"])
        (ownershipConflictMessage expected resource.id) now
    exact ⟨kind, condition, hkind, hmem, hpublished, hstatus⟩
  | @saveDeletionIntent nowMs claim host resource now log db turn hdeleting =>
    exact ⟨host, turn.stored, rfl, .of_deletion turn hdeleting ⟨[_, _, _, _], rfl⟩ rfl (fun h => h)
      (ahead_default nowMs)⟩
  | @saveDeleted nowMs claim host resource now answer log db turn hdeleting =>
    have hsuffix : log <:+ _ := ⟨[⟨.provider (.delete host.resource.id), answer⟩,
      ⟨.saveHost (deletionIntent host resource now), .ok ()⟩, ⟨.nowTimestamp, now⟩,
      ⟨.provider (.observe host.resource.id), .ok (.present resource)⟩,
      ⟨.getHost host.resource.id, .ok host⟩,
      ⟨.enterSpan (.reconcileHostClaimDeletion claim.resource.id), ()⟩], rfl⟩
    rcases answer with (message | message) | _ | _
    · exact ⟨_, turn.stored, rfl, .rejected (turn.toTurn.clock hsuffix) ⟨_, rfl⟩ trivial
        (turn.releasing hdeleting rfl) rfl rfl rfl⟩
    · exact ⟨_, turn.stored, rfl, .of_deletion turn hdeleting hsuffix rfl (fun h => h)
        (ahead_retryDeadline rfl)⟩
    · exact ⟨_, turn.stored, rfl, .of_deletion turn hdeleting hsuffix rfl (fun h => h)
        (ahead_default nowMs)⟩
    · exact ⟨_, turn.stored, rfl, .of_deletion turn hdeleting hsuffix rfl (fun h => h)
        (.within (by decide) (by decide) rfl)⟩
  | @saveRetryOnly nowMs claim host error log db turn hdeleting =>
    cases error with
    | definitive =>
      exact ⟨host, turn.stored, rfl, .rejected (turn.toTurn.clock ⟨[_, _, _], rfl⟩) ⟨_, rfl⟩ trivial
        (turn.releasing hdeleting rfl) rfl rfl rfl⟩
    | transient =>
      exact ⟨host, turn.stored, rfl, .of_deletion turn hdeleting ⟨[_, _, _], rfl⟩ rfl (fun h => h)
        (ahead_retryDeadline rfl)⟩
  | @saveIntent nowMs claim host log db turn =>
    refine ⟨host, turn.stored, rfl, .ahead (turn.toTurn.clock ⟨[_, _, _], rfl⟩) ?_
      (ahead_default nowMs) fun hfailed => by cases hfailed⟩
    rintro ⟨⟨claimId, hspan⟩, -⟩
    cases hspan
  | @saveHost nowMs claim host stored now updated events log db turn hlive publishing hnotFailed =>
    have hkept := (publishing.publishes turn.truthful.typed turn.typed).hostKept
    have hid : updated.2.resource.id = host.resource.id := by
      rw [← hkept]
      rfl
    obtain ⟨hahead, hexplained⟩ := publishing.ahead turn.typed hnotFailed
    refine ⟨stored, hid ▸ turn.stored, ?_, .ahead ?_ (fun h => publishing.not_inDeletion h.1) hahead
      fun hfailed => .inl (hexplained hfailed)⟩
    · rw [← turn.kept]
      exact hkept
    · exact turn.toTurn.clock (publishing.suffix.trans (List.suffix_cons _ _))

/-- A Host saved at an await point is ahead, or parked for an error while its claim is being
    deleted. -/
theorem HostSchedule.ahead_or_parked (h : HostSchedule log db stored record) :
    ∃ nowMs, ⟨.nowUnixMs, nowMs⟩ ∈ log ∧
      (Ahead nowMs record.retry ∨
        record.retry.Parked ∧ db.Releasing record ∧
          (record.retry.lastErrorKind = some "ProviderRejected" ∨
            record.retry.lastErrorKind = some "ProviderOwnershipConflict")) := by
  cases h with
  | ahead hclock _ hahead => exact ⟨_, hclock, .inl hahead⟩
  | rejected hclock _ _ hreleasing hparked hkind =>
    exact ⟨_, hclock, .inr ⟨hparked, hreleasing, .inl hkind⟩⟩
  | conflict hclock _ hreleasing hparked hexplained =>
    obtain ⟨kind, -, hkind, hmem, -⟩ := hexplained
    refine ⟨_, hclock, .inr ⟨hparked, hreleasing, ?_⟩⟩
    rw [hkind]
    rcases List.mem_pair.mp hmem with rfl | rfl
    · exact .inl rfl
    · exact .inr rfl

/-! ## Claims -/

/-- How long a claim saved at an await point is left alone, and what it publishes if for ever. -/
inductive ClaimSchedule (log : Happened) (claim record : HostClaimRecord) : Prop where
  | ahead {nowMs : Int64} : ⟨.nowUnixMs, nowMs⟩ ∈ log → Ahead nowMs record.retry →
      ClaimSchedule log claim record
  | same : record.retry = claim.retry →
      publishedAs record.resource.status.conditions "Accepted" =
        publishedAs claim.resource.status.conditions "Accepted" →
      ClaimSchedule log claim record
  | rejected {condition} : record.retry.Parked →
      record.retry.lastErrorKind = some "ProviderRejected" →
      publishedAs record.resource.status.conditions "Accepted" = some condition →
      condition.status = .false → condition.reason = "ProviderRejected" →
      ClaimSchedule log claim record

theorem HostClaimRecord.Typed.mem {conditionType : String} (h : claim.Typed)
    (hmem : conditionType ∈ claimConditionTypes) :
    conditionType ∈ conditionTypes claim.resource.status.conditions := by
  rw [show conditionTypes claim.resource.status.conditions = claimConditionTypes from h]
  exact hmem

/-- Setting the readiness of a claim leaves its acceptance alone. -/
theorem accepted_setReady (h : claim.Typed) {next : Condition}
    (hnext : next.conditionType = "Ready") :
    publishedAs (claim.setCondition next).resource.status.conditions "Accepted" =
      publishedAs claim.resource.status.conditions "Accepted" := by
  refine publishedAs_setCondition_ne ?_ (by rw [hnext]; decide)
  exact h.mem (by simp [hnext, claimConditionTypes])

/-- What `reconcile_host` publishes for the claim. -/
theorem Publishing.claimSchedule {now : Timestamp} {base : Happened}
    {updated : HostClaimRecord × HostRecord}
    (h : Publishing claim host nowMs now base events stored updated) (hclaim : claim.Typed)
    (hclock : ⟨.nowUnixMs, nowMs⟩ ∈ log) : ClaimSchedule log claim updated.1 := by
  cases h with
  | conflict | absent | createUnknown => exact .same rfl (accepted_setReady hclaim rfl)
  | observed | created => exact .ahead hclock (.clear rfl)
  | @observeError error | @createError error =>
    cases error <;> exact .same rfl (accepted_setReady hclaim rfl)

/-- Every claim status saved at an await point was computed from the stored claim, or is stale,
    and is scheduled in one of these ways. -/
theorem AwaitPoint.claimSchedule {record : HostClaimRecord}
    (h : AwaitPoint log db (.saveClaimStatus record)) :
    ∃ nowMs claim base, Turn nowMs claim base db ∧ claim.withStatus record = record ∧
      ClaimSchedule log claim record := by
  cases h with
  | publishDeletionConflict turn =>
    exact ⟨_, _, _, turn.toTurn, rfl, .same rfl (accepted_setReady turn.truthful.typed rfl)⟩
  | saveClaimStatus turn _ publishing =>
    have hkept := (publishing.publishes turn.truthful.typed turn.typed).claimKept
    refine ⟨_, _, _, turn.toTurn, hkept, publishing.claimSchedule turn.truthful.typed ?_⟩
    exact turn.toTurn.clock ((publishing.suffix.trans (List.suffix_cons _ _)).trans
      (List.suffix_cons _ _))
  | saveUnsatisfiable turn =>
    exact ⟨_, _, _, turn, rfl, .ahead (turn.clock ⟨[_, _, _], rfl⟩) (.clear rfl)⟩
  | @saveProviderError nowMs claim error now log db turn =>
    refine ⟨_, _, _, turn, kept_scheduleClaimProviderError _ _ _ _, ?_⟩
    cases error with
    | definitive =>
      refine .rejected rfl rfl (publishedAs_setCondition_self ?_) rfl rfl
      exact turn.truthful.typed.mem (by simp [newCondition, claimConditionTypes])
    | transient => exact .ahead (turn.clock ⟨[_, _, _], rfl⟩) (ahead_retryDeadline rfl)

end ControlPlane
