import ControlPlane.Controller.Scenario
import ControlPlane.Controller.Untimed
import ControlPlane.Deadlines

/-!
# A pass that changes nothing

`run` repeats `reconcile_once` at once after `Progress`. A pass that leaves everything as it was,
apart from timestamps, must therefore be idle. It is, except that a Host already being deleted
counts as progress for as long as the provider acknowledges its deletion and goes on showing it;
at the end of the clock's range a deadline no longer lies ahead; and a pass that storage refuses
returns the error.
-/

namespace ControlPlane

open Interaction Controller

variable {σ : Type} {P : ProviderModel σ} {nowMs : Int64} {claim : HostClaimRecord}
  {host : HostRecord} {claims : List HostClaimRecord} {log log' : Happened} {db db' : Database}
  {s s' : σ} {world world' : World σ} {result : Except AppError ReconcileResult}

/-- `Storage` answered an error that the pass returns. -/
def Refusal : Event Effect Answer → Prop
  | ⟨.listClaims, .error _⟩ | ⟨.getHost _, .error _⟩ | ⟨.saveHost _, .error _⟩
  | ⟨.saveClaimStatus _, .error _⟩ | ⟨.finalizeClaim _, .error _⟩ => True
  | ⟨.ensureHost _ _ _, .error error⟩ => error.stale = false
  | _ => False

/-- The provider failed, or left open whether it deleted. -/
def Failing : Event Effect Answer → Prop
  | ⟨.provider (.selectPlan _), .error _⟩ | ⟨.provider (.observe _), .error _⟩
  | ⟨.provider (.create _ _), .error _⟩ | ⟨.provider (.delete _), .error _⟩
  | ⟨.provider (.delete _), .ok .outcomeUnknown⟩ => True
  | _ => False

/-- Storage refused the pass something. -/
def Refused (log : Happened) : Prop :=
  ∃ event ∈ log, Refusal event

/-- The pass has an error of the provider to record, or an ownership conflict. -/
def Outstanding (log : Happened) : Prop :=
  (∃ event ∈ log, Failing event) ∨ ∃ hostId, Conflict log hostId

/-- The clock is at the end of its range, and an error is to be recorded. -/
def Saturated (log : Happened) : Prop :=
  log.getLast? = some ⟨.nowUnixMs, Int64.maxValue⟩ ∧ Outstanding log

/-- The provider acknowledged the deletion of a Host that was already stored as being deleted,
    with the resource it showed recorded and nothing outstanding. -/
def Acknowledged (log : Happened) : Prop :=
  ∃ host resource, ⟨.getHost host.resource.id, .ok host⟩ ∈ log ∧
    ⟨.provider (.observe host.resource.id), .ok (.present resource)⟩ ∈ log ∧
    ⟨.provider (.delete host.resource.id), .ok .deleted⟩ ∈ log ∧
    host.resource.status.phase = .deleting ∧
    host.resource.status.providerResourceId = some resource.id ∧
    host.retry = RetryState.default

/-! ## Idle passes meet none of this -/

/-- An event that is no refusal, no failure and no call of `delete`. -/
structure Harmless (event : Event Effect Answer) : Prop where
  notRefusal : ¬ Refusal event
  notFailing : ¬ Failing event
  notDelete : ∀ hostId, event.op ≠ .provider (.delete hostId)

theorem Persisted.harmless {record : HostClaimRecord}
    (h : Persisted record db log (.ok ()) db' log') :
    ∀ event ∈ log', event ∈ log ∨ Harmless event := by
  intro event hmem
  cases h with
  | saved =>
    rcases List.mem_cons.mp hmem with rfl | hmem
    · exact .inr ⟨id, id, nofun⟩
    · exact .inl hmem
  | stale =>
    rcases List.mem_cons.mp hmem with rfl | hmem
    · exact .inr ⟨id, id, nofun⟩
    rcases List.mem_cons.mp hmem with rfl | hmem
    · exact .inr ⟨id, id, nofun⟩
    · exact .inl hmem

/-- The events of an idle turn are harmless. -/
theorem IdleTurn.harmless (h : IdleTurn P nowMs claim log db s db' s' log') :
    ∀ event ∈ log', event ∈ log ∨ Harmless event := by
  intro event hmem
  cases h with
  | postponed => exact .inl hmem
  | releasePostponed =>
    simp only [deletionOpened, List.mem_cons] at hmem
    rcases hmem with rfl | rfl | hmem
    · exact .inr ⟨id, id, nofun⟩
    · exact .inr ⟨id, id, nofun⟩
    · exact .inl hmem
  | skipped =>
    rcases List.mem_cons.mp hmem with rfl | hmem
    · exact .inr ⟨id, id, nofun⟩
    · exact .inl hmem
  | observed _ _ _ _ _ _ hpersisted =>
    rcases hpersisted.harmless event hmem with hmem | hharmless
    · simp only [hostOpened, List.mem_cons] at hmem
      rcases hmem with rfl | rfl | rfl | rfl | rfl | hmem
      · exact .inr ⟨id, id, nofun⟩
      · exact .inr ⟨id, id, nofun⟩
      · exact .inr ⟨id, id, nofun⟩
      · exact .inr ⟨id, id, nofun⟩
      · exact .inr ⟨id, id, nofun⟩
      · exact .inl hmem
    · exact .inr hharmless
  | @assignStale _ _ _ error _ _ _ _ _ hstale =>
    simp only [claimOpened, List.mem_cons] at hmem
    rcases hmem with rfl | rfl | rfl | rfl | hmem
    · exact .inr ⟨id, id, nofun⟩
    · refine .inr ⟨fun hfalse => ?_, id, nofun⟩
      have hfalse : error.stale = false := hfalse
      rw [hstale] at hfalse
      cases hfalse
    · exact .inr ⟨id, id, nofun⟩
    · exact .inr ⟨id, id, nofun⟩
    · exact .inl hmem
  | unsatisfiable =>
    simp only [claimOpened, List.mem_cons] at hmem
    rcases hmem with rfl | rfl | rfl | hmem
    · exact .inr ⟨id, id, nofun⟩
    · exact .inr ⟨id, id, nofun⟩
    · exact .inr ⟨id, id, nofun⟩
    · exact .inl hmem

theorem Idled.harmless (h : Idled P nowMs claims log db s db' s' log')
    (hbefore : ∀ event ∈ log, Harmless event) : ∀ event ∈ log', Harmless event := by
  induction h with
  | nil => exact hbefore
  | cons hturn _ ih =>
    refine ih fun event hmem => ?_
    rcases hturn.harmless event hmem with hmem | hharmless
    · exact hbefore event hmem
    · exact hharmless

/-- A Host that was only read is in no conflict. -/
theorem conflict_of_read {hostId other : HostId} {answer : Except AppError HostRecord}
    (hunseen : ∀ event ∈ log, lookedAt event ≠ some hostId)
    (h : Conflict (⟨.getHost hostId, answer⟩ :: log) other) : Conflict log other := by
  obtain ⟨host, resource, expected, hread, hobserved, helsewhere⟩ := h
  rcases List.mem_cons.mp hobserved with hhead | hearlier
  · cases hhead
  rcases List.mem_cons.mp hread with hhead | hread
  · cases hhead
    exact absurd rfl (hunseen _ hearlier)
  · exact ⟨host, resource, expected, hread, hearlier, helsewhere⟩

/-- A Host that was read and observed as recorded is in no conflict. -/
theorem conflict_of_observed {other : HostId} {resource : ProviderResource}
    (hunseen : ∀ event ∈ log, lookedAt event ≠ some host.resource.id)
    (hsame : recordedElsewhere host resource = none)
    (h : Conflict (⟨.provider (.observe host.resource.id), .ok (.present resource)⟩ ::
      hostOpened claim host log) other) : Conflict log other := by
  obtain ⟨host', resource', expected, hread, hobserved, helsewhere⟩ := h
  simp only [hostOpened, List.mem_cons] at hread hobserved
  rcases hread with hread | hread | hread | hread
  · cases hread
  · cases hread
  · cases hread
    rcases hobserved with hobserved | hobserved | hobserved | hobserved
    · cases hobserved
      rw [hsame] at helsewhere
      cases helsewhere
    · cases hobserved
    · cases hobserved
    · exact (hunseen _ hobserved rfl).elim
  · rcases hobserved with hobserved | hobserved | hobserved | hobserved
    · cases hobserved
      exact (hunseen _ hread rfl).elim
    · cases hobserved
    · cases hobserved
    · exact ⟨host', resource', expected, hread, hobserved, helsewhere⟩

/-- An idle turn meets no conflict. -/
theorem IdleTurn.not_conflict (h : IdleTurn P nowMs claim log db s db' s' log')
    (hunseen : ∀ hostId, claim.resource.status.hostId = some hostId →
      ∀ event ∈ log, lookedAt event ≠ some hostId) {hostId : HostId}
    (hconflict : Conflict log' hostId) : Conflict log hostId := by
  cases h with
  | postponed => exact hconflict
  | @releasePostponed host _ opened =>
    refine conflict_of_cons rfl (conflict_of_read (fun event hmem => ?_) hconflict)
    rcases List.mem_cons.mp hmem with rfl | hmem
    · exact nofun
    · exact hunseen _ opened.bound event hmem
  | skipped _ opened => exact conflict_of_read (hunseen _ opened.bound) hconflict
  | @observed host resource _ _ _ _ _ _ usable _ hsame _ _ _ hpersisted =>
    have hobserved : Conflict
        (⟨.provider (.observe host.resource.id), .ok (.present resource)⟩ ::
          hostOpened claim host log) hostId := by
      cases hpersisted with
      | saved =>
        exact conflict_of_cons rfl (conflict_of_cons rfl (conflict_of_cons rfl hconflict))
      | stale =>
        exact conflict_of_cons rfl (conflict_of_cons rfl (conflict_of_cons rfl
          (conflict_of_cons rfl hconflict)))
    exact conflict_of_observed (hunseen _ usable.bound) hsame hobserved
  | assignStale =>
    exact conflict_of_cons rfl (conflict_of_cons rfl (conflict_of_cons rfl
      (conflict_of_cons rfl hconflict)))
  | unsatisfiable =>
    exact conflict_of_cons rfl (conflict_of_cons rfl (conflict_of_cons rfl hconflict))

/-- An event about a claim looks at its Host, if at any. -/
theorem About.lookedAt {event : Event Effect Answer} {hostId : HostId}
    (habout : About claim event) (hlooked : lookedAt event = some hostId) :
    claim.resource.status.hostId = some hostId := by
  obtain ⟨effect, answer⟩ := event
  cases effect with
  | getHost other =>
    cases hlooked
    exact habout
  | provider call =>
    cases call with
    | observe other =>
      cases hlooked
      exact habout
    | selectPlan | create | delete => cases hlooked
  | _ => cases hlooked

theorem Idled.not_conflict (h : Idled P nowMs claims log db s db' s' log')
    (hfollows : claims.Pairwise Follows)
    (hunseen : ∀ claim ∈ claims, ∀ hostId, claim.resource.status.hostId = some hostId →
      ∀ event ∈ log, lookedAt event ≠ some hostId) {hostId : HostId}
    (hconflict : Conflict log' hostId) : Conflict log hostId := by
  induction h with
  | nil => exact hconflict
  | @cons claim rest log db s db₁ s₁ log₁ db' s' log' hturn _ ih =>
    obtain ⟨hfirst, hrest⟩ := List.pairwise_cons.mp hfollows
    refine hturn.not_conflict (hunseen claim List.mem_cons_self) (ih hrest ?_ hconflict)
    intro other hother otherHost hbound event hmem hlooked
    obtain ⟨events, rfl, habout⟩ := hturn.logged
    rcases List.mem_append.mp hmem with hmem | hmem
    · exact (hfirst other hother).2 otherHost ((habout event hmem).lookedAt hlooked) hbound
    · exact hunseen other (List.mem_cons_of_mem _ hother) otherHost hbound event hmem hlooked

/-! ## A turn that changes nothing and is not idle -/

/-- Records that differ in timestamps only have the same phase, resource and retry state. -/
theorem HostRecord.same_of_untimed {host' : HostRecord} (h : host'.untimed = host.untimed) :
    host'.resource.status.phase = host.resource.status.phase ∧
      host'.resource.status.providerResourceId = host.resource.status.providerResourceId ∧
      host'.retry = host.retry := by
  have hphase := congrArg (fun host : HostRecord => host.resource.status.phase) h
  have hid := congrArg (fun host : HostRecord => host.resource.status.providerResourceId) h
  have hretry := congrArg HostRecord.retry h
  exact ⟨hphase, hid, hretry⟩

theorem Storage.claim?_finalizeClaim {claimId : HostClaimId}
    (h : finalizeClaim claimId db = .ok ((), db')) : db'.claim? claimId = none := by
  obtain ⟨-, hclaims, -⟩ := finalizeClaim_rows h
  rw [Option.eq_none_iff_forall_ne_some]
  intro claim hclaim
  obtain ⟨row, hmem, hid, -⟩ := Database.claim?_eq_some.mp hclaim
  rw [hclaims] at hmem
  exact of_decide_eq_true (List.mem_filter.mp hmem).2 hid

/-- Publishing stores the Host, or is refused. -/
theorem Published.stored {updated : HostClaimRecord × HostRecord} {answer : Except AppError Unit}
    (h : Published updated db log answer db' log')
    (hstored : db.host? updated.2.resource.id = some host) :
    Refused log' ∨ db'.host? updated.2.resource.id = some (host.withStatus updated.2) := by
  cases h with
  | refused => exact .inl ⟨_, List.mem_cons_self, trivial⟩
  | saved hsave hpersisted =>
    have hhost := (Storage.saveHost_records hsave hstored).2
    cases hpersisted with
    | refused => exact .inl ⟨_, List.mem_cons_self, trivial⟩
    | saved hclaim | stale hclaim =>
      right
      rw [(Storage.saveClaimStatus_frame hclaim).2, hhost, Function.update_self]

/-- A deadline that was due, and is written again, shows the end of the clock's range. -/
theorem eq_maxValue_of_due {retry : RetryState} {deadline : Int64}
    (hdue : retry.isDue nowMs = true) (hretry : retry.nextReconcileAtUnixMs = some deadline)
    (hahead : deadline ≤ nowMs → nowMs = Int64.maxValue) : nowMs = Int64.maxValue := by
  unfold RetryState.isDue at hdue
  rw [hretry] at hdue
  exact hahead (of_decide_eq_true hdue)

theorem eq_maxValue_of_maxValue_le (h : Int64.maxValue ≤ nowMs) : nowMs = Int64.maxValue := by
  rw [Int64.le_iff_toInt_le] at h
  have hmax := Int64.toInt_le nowMs
  apply Int64.toInt_inj.mp
  omega

/-- `schedule_host_retry_only` sets a deadline ahead of the clock. -/
theorem eq_maxValue_of_retryOnly {host' : HostRecord} {error : ProviderError}
    {retry : RetryState} (hdue : retry.isDue nowMs = true)
    (hsame : (scheduleHostRetryOnly host' error nowMs).retry = retry) :
    nowMs = Int64.maxValue := by
  subst hsame
  cases error with
  | definitive => exact eq_maxValue_of_due hdue rfl eq_maxValue_of_maxValue_le
  | transient => exact eq_maxValue_of_due hdue rfl eq_maxValue_of_retryDeadline_le

theorem eq_maxValue_of_afterDelete {host' : HostRecord} {retry : RetryState}
    {deleted : Except ProviderError DeleteOutcome} (hdue : retry.isDue nowMs = true)
    (hsame : (afterDelete host' nowMs deleted).retry = retry) (hopen : deleted ≠ .ok .deleted) :
    nowMs = Int64.maxValue := by
  rcases deleted with error | _ | _
  · exact eq_maxValue_of_retryOnly hdue hsame
  · exact absurd rfl hopen
  · subst hsame
    exact eq_maxValue_of_due hdue rfl (eq_maxValue_of_saturatingAdd_le (by decide))

/-- What is published for a created resource is never pending. -/
theorem afterCreate_phase (claim : HostClaimRecord) (host : HostRecord) (nowMs : Int64)
    (now : Timestamp) (created : Except ProviderError CreateOutcome) :
    (afterCreate claim host nowMs now created).2.resource.status.phase ≠ .pending := by
  rcases created with (_ | _) | ⟨⟨id, hostId, lifecycle⟩⟩ | _
  · exact nofun
  · exact nofun
  · cases lifecycle <;> exact nofun
  · exact nofun

/-- An observation that leaves phase, resource and retry state as they were is stable. -/
theorem stable_of_same {resource : ProviderResource} {now : Timestamp}
    (hphase : (applyProviderObservation claim host resource now).2.resource.status.phase =
      host.resource.status.phase)
    (hid : (applyProviderObservation claim host resource now).2.resource.status.providerResourceId =
      host.resource.status.providerResourceId)
    (hretry : (applyProviderObservation claim host resource now).2.retry = host.retry) :
    providerObservationIsStable host resource = true := by
  have hexpected : host.resource.status.phase = resource.lifecycle.expectedPhase := by
    rw [← hphase]
    obtain ⟨id, hostId, lifecycle⟩ := resource
    cases lifecycle <;> rfl
  unfold providerObservationIsStable
  rw [← hid, ← hretry, hexpected]
  simp [applyProviderObservation, HostRecord.setCondition, RetryState.default]

/-- The report of `markUnsatisfiable` is about the claim's conditions. -/
theorem markUnsatisfiable_unchanged {now : Timestamp}
    (h : (markUnsatisfiable claim now).1.resource.status.conditions.map Condition.untimed =
      claim.resource.status.conditions.map Condition.untimed) :
    (markUnsatisfiable claim now).2 = false := by
  obtain ⟨haccepted, hbound, hready⟩ :=
    setCondition_thrice (by decide : "Accepted" ≠ "Bound") (by decide : "Bound" ≠ "Ready")
      (by decide : "Accepted" ≠ "Ready") h
  simp only [markUnsatisfiable, haccepted, hbound, hready, Bool.or_false]

/-- What the records of the claim and of its Host are, apart from timestamps, before and after a
    turn that changes nothing. -/
structure Restored (claim : HostClaimRecord) (db db' : Database) : Prop where
  stored : db.claim? claim.resource.id = some claim
  claimAfter : (db'.claim? claim.resource.id).map HostClaimRecord.untimed = some claim.untimed
  hostAfter : ∀ hostId host, claim.resource.status.hostId = some hostId →
    db.host? hostId = some host → (db'.host? hostId).map HostRecord.untimed = some host.untimed

/-- The Host saved in such a turn is the one stored before. -/
theorem Restored.saved {record : HostRecord} (h : Restored claim db db')
    (opened : Opened claim host db)
    (hstored : db'.host? record.resource.id = some (host.withStatus record))
    (hid : record.resource.id = host.resource.id) :
    record.resource.status.phase = host.resource.status.phase ∧
      record.resource.status.providerResourceId = host.resource.status.providerResourceId ∧
      record.retry = host.retry := by
  have hafter := h.hostAfter _ host opened.bound (Database.getHost_eq_ok.mp opened.stored)
  rw [hid] at hstored
  rw [hstored] at hafter
  have hsame : (host.withStatus record).untimed = host.untimed := Option.some_inj.mp hafter
  obtain ⟨hphase, hrecorded, hretry⟩ := HostRecord.same_of_untimed hsame
  exact ⟨hphase, hrecorded, hretry⟩

/-- The Host published in such a turn is the one stored before. -/
theorem Restored.published {updated : HostClaimRecord × HostRecord}
    {answer : Except AppError Unit} (h : Restored claim db db') (opened : Opened claim host db)
    (hid : updated.2.resource.id = host.resource.id)
    (hpublished : Published updated db log answer db' log') :
    Refused log' ∨
      (updated.2.resource.status.phase = host.resource.status.phase ∧
        updated.2.resource.status.providerResourceId =
          host.resource.status.providerResourceId ∧
        updated.2.retry = host.retry) := by
  have hread := Database.getHost_eq_ok.mp opened.stored
  rw [← hid] at hread
  rcases hpublished.stored hread with hrefused | hstored
  · exact .inl hrefused
  · exact .inr (h.saved opened hstored hid)

/-- The claim status saved in such a turn is the one stored before. -/
theorem Restored.persisted {record : HostClaimRecord} {answer : Except AppError Unit}
    (h : Restored claim db db') (hpersisted : Persisted record db log answer db' log')
    (hid : record.resource.id = claim.resource.id)
    (hdeletion : record.resource.deletionTimestamp = claim.resource.deletionTimestamp) :
    Refused log' ∨
      (record.resource.status.conditions.map Condition.untimed =
          claim.resource.status.conditions.map Condition.untimed ∧
        record.retry = claim.retry) := by
  have hclaim := h.stored
  rw [← hid] at hclaim
  cases hpersisted with
  | refused => exact .inl ⟨_, List.mem_cons_self, trivial⟩
  | saved hsave | stale hsave =>
    right
    obtain ⟨-, -, hclaims⟩ := Storage.saveClaimStatus_records hsave hclaim hdeletion.symm
    have hafter := h.claimAfter
    rw [← hid, hclaims, Function.update_self] at hafter
    have hsame := Option.some_inj.mp hafter
    have hconditions :=
      congrArg (fun claim : HostClaimRecord => claim.resource.status.conditions) hsame
    have hretry := congrArg HostClaimRecord.retry hsame
    exact ⟨hconditions, hretry⟩

/-- The claim is not finalized in such a turn. -/
theorem Restored.not_finalized {answer : Except AppError Unit} (h : Restored claim db db')
    (hrun : Storage.run (Storage.finalizeClaim claim.resource.id) db = (answer, db')) :
    ∃ error, answer = .error error := by
  cases answer with
  | error error => exact ⟨error, rfl⟩
  | ok =>
    have hafter := h.claimAfter
    rw [Storage.claim?_finalizeClaim (run_ok hrun)] at hafter
    cases hafter

/-- A turn that changes nothing is idle, or meets one of the three exceptions. -/
theorem TurnOutcome.of_restored (h : TurnOutcome P nowMs claim log db s result db' s' log')
    (hstop : result ≠ .ok .idle) (hrestored : Restored claim db db') :
    Acknowledged log' ∨ (nowMs = Int64.maxValue ∧ Outstanding log') ∨ Refused log' := by
  have hmem : ∀ {updated : HostClaimRecord × HostRecord} {answer : Except AppError Unit}
      {base : Happened} {middle : Database} {event : Event Effect Answer},
      Published updated middle base answer db' log' → event ∈ base → event ∈ log' := by
    intro updated answer base middle event hpublished hevent
    exact (hpublished.logged (.refl claim base)).suffix.subset hevent
  cases h with
  | finalizedUnbound _ _ hrun =>
    obtain ⟨error, rfl⟩ := hrestored.not_finalized hrun
    exact .inr (.inr ⟨_, List.mem_cons_self, trivial⟩)
  | finalizedAbsent _ _ hrun =>
    obtain ⟨error, rfl⟩ := hrestored.not_finalized hrun
    exact .inr (.inr ⟨_, List.mem_cons_self, trivial⟩)
  | releaseUnread | releaseRefused | unread | intentRefused =>
    exact .inr (.inr ⟨_, List.mem_cons_self, trivial⟩)
  | assignRefused _ _ _ _ hstale => exact .inr (.inr ⟨_, List.mem_cons_self, hstale⟩)
  | releasePostponed | skipped | postponed | assignStale | unsatisfiable =>
    exact absurd rfl hstop
  | @releaseConflict host resource expected now _ _ _ _ releasable _ helsewhere hpublished =>
    rcases hrestored.published releasable.toOpened rfl hpublished with hrefused | ⟨-, -, hretry⟩
    · exact .inr (.inr hrefused)
    · refine .inr (.inl ⟨?_, .inr ⟨host.resource.id, host, resource, expected, ?_, ?_, helsewhere⟩⟩)
      · exact eq_maxValue_of_due releasable.due
          (congrArg RetryState.nextReconcileAtUnixMs hretry).symm eq_maxValue_of_maxValue_le
      · exact hmem hpublished (by simp [deletionOpened])
      · exact hmem hpublished (by simp)
  | @released host resource now _ middle deleted _ answer _ releasable _ _ hsave _ hrun =>
    cases answer with
    | error error => exact .inr (.inr ⟨_, List.mem_cons_self, trivial⟩)
    | ok =>
      have hread := Database.getHost_eq_ok.mp releasable.stored
      have hintent := (Storage.saveHost_records hsave hread).2
      have hid : (afterDelete (deletionIntent host resource now) nowMs deleted).resource.id =
          host.resource.id := by
        obtain ⟨retry, hretry⟩ := afterDelete_eq (deletionIntent host resource now) nowMs deleted
        rw [hretry]
        rfl
      have hmiddle : middle.host?
          (afterDelete (deletionIntent host resource now) nowMs deleted).resource.id =
          some (host.withStatus (deletionIntent host resource now)) := by
        rw [hid, hintent]
        exact Function.update_self ..
      have hstored := (Storage.saveHost_records (run_ok hrun) hmiddle).2
      obtain ⟨hphase, hrecorded, hretry⟩ := hrestored.saved releasable.toOpened
        (by rw [hstored, Function.update_self]; rfl) hid
      by_cases hdeleted : deleted = .ok .deleted
      · subst hdeleted
        exact .inl ⟨host, resource, by simp [deletionOpened], by simp, by simp, hphase.symm,
          hrecorded.symm, hretry.symm⟩
      · refine .inr (.inl ⟨eq_maxValue_of_afterDelete releasable.due hretry hdeleted, .inl ?_⟩)
        refine ⟨⟨.provider (.delete host.resource.id), deleted⟩, by simp, ?_⟩
        rcases deleted with error | _ | _
        · trivial
        · exact absurd rfl hdeleted
        · trivial
  | @releaseError host error _ answer _ releasable _ hrun =>
    cases answer with
    | error error => exact .inr (.inr ⟨_, List.mem_cons_self, trivial⟩)
    | ok =>
      have hread := Database.getHost_eq_ok.mp releasable.stored
      have hstored : db'.host? (scheduleHostRetryOnly host error nowMs).resource.id =
          some (host.withStatus (scheduleHostRetryOnly host error nowMs)) := by
        rw [(Storage.saveHost_records (run_ok hrun) hread).2, Function.update_self]
      obtain ⟨-, -, hretry⟩ := hrestored.saved releasable.toOpened hstored rfl
      refine .inr (.inl ⟨eq_maxValue_of_retryOnly releasable.due hretry, .inl ?_⟩)
      exact ⟨⟨.provider (.observe host.resource.id), .error error⟩, by simp, trivial⟩
  | conflict usable _ _ hpublished =>
    rcases hrestored.published usable.toOpened rfl hpublished with hrefused | ⟨hphase, -, -⟩
    · exact .inr (.inr hrefused)
    · exact absurd hphase.symm usable.notFailed
  | observed usable _ _ hpublished =>
    rcases hrestored.published usable.toOpened rfl hpublished with
      hrefused | ⟨hphase, hid, hretry⟩
    · exact .inr (.inr hrefused)
    · rw [stable_of_same hphase hid hretry] at hstop
      cases hpublished with
      | refused => exact .inr (.inr ⟨_, List.mem_cons_self, trivial⟩)
      | saved _ hpersisted =>
        cases hpersisted with
        | refused => exact .inr (.inr ⟨_, List.mem_cons_self, trivial⟩)
        | saved | stale => exact absurd rfl hstop
  | absent usable _ hguard hpublished =>
    rcases hrestored.published usable.toOpened rfl hpublished with hrefused | ⟨hphase, hid, -⟩
    · exact .inr (.inr hrefused)
    · rcases hguard with hrecorded | hpending
      · rw [← hid] at hrecorded
        cases hrecorded
      · exact absurd hphase.symm hpending
  | @observeError host error _ _ _ _ _ usable _ hpublished =>
    rcases hrestored.published usable.toOpened (by cases error <;> rfl) hpublished with
      hrefused | ⟨hphase, -, hretry⟩
    · exact .inr (.inr hrefused)
    · cases error with
      | definitive => exact absurd hphase.symm usable.notFailed
      | transient message =>
        refine .inr (.inl ⟨?_, .inl ⟨⟨.provider (.observe host.resource.id),
          .error (.transient message)⟩, hmem hpublished (by simp), trivial⟩⟩)
        exact eq_maxValue_of_due usable.due
          (congrArg RetryState.nextReconcileAtUnixMs hretry).symm eq_maxValue_of_retryDeadline_le
  | @created host now _ middle created _ _ _ _ usable _ _ hpending hsave _ hpublished =>
    have hread := Database.getHost_eq_ok.mp usable.stored
    have hintent := (Storage.saveHost_records hsave hread).2
    have hid : (afterCreate claim host nowMs now created).2.resource.id = host.resource.id := by
      rcases created with (_ | _) | _ | _ <;> rfl
    have hmiddle : middle.host? (afterCreate claim host nowMs now created).2.resource.id =
        some (host.withStatus (provisioningIntent host)) := by
      rw [hid, hintent]
      exact Function.update_self ..
    rcases hpublished.stored hmiddle with hrefused | hstored
    · exact .inr (.inr hrefused)
    · obtain ⟨hphase, -, -⟩ := hrestored.saved usable.toOpened hstored hid
      exact absurd (hphase.trans hpending) (afterCreate_phase claim host nowMs now created)
  | assigned unbound _ _ hensure =>
    obtain ⟨row, hmemRow, howner⟩ := Storage.ensureHost_bound hensure
    obtain ⟨after, hafter, hsame⟩ := Option.map_eq_some_iff.mp hrestored.claimAfter
    have hbound := (Database.claim?_hostId_row hafter).mpr ⟨row, hmemRow, howner, rfl⟩
    have hunbound : after.resource.status.hostId = none :=
      (congrArg (fun claim : HostClaimRecord => claim.resource.status.hostId) hsame).trans
        unbound.unbound
    rw [hunbound] at hbound
    cases hbound
  | rejected _ _ hchanged hpersisted =>
    rcases hrestored.persisted hpersisted rfl rfl with hrefused | ⟨hconditions, -⟩
    · exact .inr (.inr hrefused)
    · rw [markUnsatisfiable_unchanged hconditions] at hchanged
      cases hchanged
  | @planError error _ _ _ _ _ unbound _ hpersisted =>
    have hids : ∀ now, (scheduleClaimProviderError claim error nowMs now).resource.id =
          claim.resource.id ∧
        (scheduleClaimProviderError claim error nowMs now).resource.deletionTimestamp =
          claim.resource.deletionTimestamp := by
      intro now
      cases error <;> exact ⟨rfl, rfl⟩
    rcases hrestored.persisted hpersisted (hids _).1 (hids _).2 with hrefused | ⟨-, hretry⟩
    · exact .inr (.inr hrefused)
    · have hevent := (hpersisted.logged (.refl claim _)).suffix.subset
        (List.mem_cons_of_mem _ List.mem_cons_self)
      refine .inr (.inl ⟨?_, .inl ⟨_, hevent, trivial⟩⟩)
      cases error with
      | definitive =>
        exact eq_maxValue_of_due unbound.due
          (congrArg RetryState.nextReconcileAtUnixMs hretry).symm eq_maxValue_of_maxValue_le
      | transient =>
        exact eq_maxValue_of_due unbound.due
          (congrArg RetryState.nextReconcileAtUnixMs hretry).symm eq_maxValue_of_retryDeadline_le

/-! ## Passes -/

/-- An idle pass meets nothing but harmless events, and no conflict. -/
theorem PassOutcome.harmless (h : PassOutcome P nowMs db s (.ok .idle) db' s' log) :
    (∀ event ∈ log, Harmless event) ∧ ∀ hostId, ¬ Conflict log hostId := by
  cases h with
  | @listed claims _ _ _ _ hlisted hvisits =>
    have hsnapshot : ∀ event ∈ snapshotTaken nowMs claims,
        Harmless event ∧ lookedAt event = none := by
      intro event hmem
      rcases List.mem_pair.mp hmem with rfl | rfl
      · exact ⟨⟨id, id, nofun⟩, rfl⟩
      · exact ⟨⟨id, id, nofun⟩, rfl⟩
    cases hvisits with
    | stopped _ _ _ hne => exact absurd rfl hne
    | idle hidled =>
      refine ⟨hidled.harmless fun event hmem => (hsnapshot event hmem).1, fun hostId h => ?_⟩
      have hunseen : ∀ claim ∈ visited nowMs claims, ∀ hostId,
          claim.resource.status.hostId = some hostId →
          ∀ event ∈ snapshotTaken nowMs claims, lookedAt event ≠ some hostId := by
        intro claim _ hostId _ event hmem hlooked
        rw [(hsnapshot event hmem).2] at hlooked
        cases hlooked
      obtain ⟨host, resource, expected, hread, -, -⟩ :=
        hidled.not_conflict (pairwise_follows hlisted) hunseen h
      rcases List.mem_pair.mp hread with hread | hread <;> cases hread

/-- A pass that is not idle and changes nothing meets one of the three exceptions. -/
theorem PassOutcome.of_restored (h : PassOutcome P nowMs db s result db' s' log)
    (hne : result ≠ .ok .idle)
    (hclaims : ∀ claimId, (db'.claim? claimId).map HostClaimRecord.untimed =
      (db.claim? claimId).map HostClaimRecord.untimed)
    (hhosts : ∀ hostId, (db'.host? hostId).map HostRecord.untimed =
      (db.host? hostId).map HostRecord.untimed) :
    Acknowledged log ∨ (nowMs = Int64.maxValue ∧ Outstanding log) ∨ Refused log := by
  cases h with
  | unlisted => exact .inr (.inr ⟨_, List.mem_cons_self, trivial⟩)
  | listed hlisted hvisits =>
    cases hvisits with
    | idle => exact absurd rfl hne
    | @stopped before claim rest db₁ _ _ _ _ _ _ hsplit hidled hstop =>
      have hfollows : (visited nowMs _).Pairwise Follows := pairwise_follows hlisted
      have hvisited : claim ∈ visited nowMs _ :=
        hsplit ▸ List.mem_append_right before List.mem_cons_self
      have hkept : Kept claim db db₁ := by
        refine hidled.kept fun other hother => ?_
        rw [hsplit] at hfollows
        exact (List.pairwise_append.mp hfollows).2.2 other hother claim List.mem_cons_self
      have hlistedClaim : claim ∈ _ := mem_visited hvisited
      have hstored := ((Database.listClaims_ok hlisted).2 claim).mp hlistedClaim
      refine hstop.of_restored hne ⟨hkept.1.trans hstored, ?_, fun hostId host hbound hhost => ?_⟩
      · rw [hclaims, hstored]
        rfl
      · rw [hkept.2 hostId hbound] at hhost
        rw [hhosts, hhost]
        rfl

/-- A pass that leaves claims, Hosts and the provider as they were, apart from timestamps, is
    idle if and only if the provider does not acknowledge a deletion that was already under way,
    the clock is not at its end with an error to record, and storage refuses nothing. -/
theorem idle_iff_of_unchanged (hpass : Pass P world result world' log)
    (hunchanged : Unchanged world world') :
    result = .ok .idle ↔ ¬ Acknowledged log ∧ ¬ Saturated log ∧ ¬ Refused log := by
  obtain ⟨nowMs, -, houtcome⟩ := hpass.outcome
  have hclock := houtcome.clock
  constructor
  · rintro rfl
    obtain ⟨hharmless, hnoConflict⟩ := houtcome.harmless
    refine ⟨?_, ?_, ?_⟩
    · rintro ⟨host, resource, -, -, hdeleted, -⟩
      exact (hharmless _ hdeleted).notDelete _ rfl
    · rintro ⟨-, ⟨event, hmem, hfailing⟩ | ⟨hostId, hconflict⟩⟩
      · exact (hharmless event hmem).notFailing hfailing
      · exact hnoConflict hostId hconflict
    · rintro ⟨event, hmem, hrefusal⟩
      exact (hharmless event hmem).notRefusal hrefusal
  · rintro ⟨hnotAcknowledged, hnotSaturated, hnotRefused⟩
    by_contra hne
    rcases houtcome.of_restored hne hunchanged.claim? hunchanged.host? with
      hacknowledged | ⟨rfl, houtstanding⟩ | hrefused
    · exact hnotAcknowledged hacknowledged
    · exact hnotSaturated ⟨hclock, houtstanding⟩
    · exact hnotRefused hrefused

/-! ## Passes that change nothing -/

namespace Script

theorem ran_provider (world : World Script) : (ran world).2.1.provider = world.provider := by
  have hkept : ∀ (program : Program Effect Answer (Except AppError ReconcileResult))
      (world : World Script) (log : Happened),
      (program.eval (World.respond provide .epoch) world log).2.1.provider = world.provider := by
    intro program
    induction program with
    | done => exact fun _ _ => rfl
    | call effect next ih =>
      intro world log
      refine (ih _ _ _).trans ?_
      cases effect with
      | provider call => cases call <;> rfl
      | _ => rfl
  exact hkept _ _ _

/-- A claim whose deletion the provider has acknowledged, with the resource still there. -/
def lingering : List (Move Script) :=
  readied ++ .markClaimDeleting claimId ⟨1⟩ :: .drift (holding .deleting) :: Move.pass 9 .epoch

theorem unchanged_ran (world : World Script)
    (hclaims : (ran world).2.1.database.hostClaims.map HostClaimRow.untimed =
      world.database.hostClaims.map HostClaimRow.untimed)
    (hhosts : (ran world).2.1.database.hosts.map HostRow.untimed =
      world.database.hosts.map HostRow.untimed) : Unchanged world (ran world).2.1 :=
  ⟨hclaims, hhosts, ran_provider world⟩

end Script

/-- A pass over a claim with a Ready Host is idle, and meets none of the exceptions. -/
theorem idle_of_readied :
    ¬ Acknowledged (Script.ran (Script.played .willing Script.readied).world).2.2 ∧
      ¬ Saturated (Script.ran (Script.played .willing Script.readied).world).2.2 ∧
      ¬ Refused (Script.ran (Script.played .willing Script.readied).world).2.2 :=
  (idle_iff_of_unchanged (Script.pass_ran _)
    (Script.unchanged_ran _ (by decide +kernel) (by decide +kernel))).mp (by decide +kernel)

/-- A pass over a claim whose deletion is acknowledged again and again changes nothing and makes
    progress. -/
theorem unchanged_pass_may_progress :
    Reachable Script.model System.anyStep .willing (Script.played .willing Script.lingering) ∧
      Pass Script.model (Script.played .willing Script.lingering).world
        (Script.ran (Script.played .willing Script.lingering).world).1
        (Script.ran (Script.played .willing Script.lingering).world).2.1
        (Script.ran (Script.played .willing Script.lingering).world).2.2 ∧
      Unchanged (Script.played .willing Script.lingering).world
        (Script.ran (Script.played .willing Script.lingering).world).2.1 ∧
      (Script.ran (Script.played .willing Script.lingering).world).1 = .ok .progress :=
  ⟨Script.reachable .willing Script.lingering, Script.pass_ran _,
    Script.unchanged_ran _ (by decide +kernel) (by decide +kernel), by decide +kernel⟩

end ControlPlane
