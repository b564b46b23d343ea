import ControlPlane.Controller.Invariant
import ControlPlane.Controller.World

/-!
# The await points of a pass

`AwaitPoint log db effect` says what holds when `reconcile_once` comes to `effect` with the
events `log` of the current pass behind it and `db` stored: which claim and Host it works on,
what it has read and asked for them, and how the value it is about to write was computed. It
speaks of what the controller may rely on while other tasks run, so it is stable under
`Database.Rely`.
-/

namespace ControlPlane

open Interaction

/-- The events of a pass, the newest first. -/
abbrev Happened := Log Effect Answer

/-- No Host has been published whose claim is still waiting for it. -/
def Quiet : Happened → Prop
  | ⟨.saveHost _, .ok ()⟩ :: ⟨.nowTimestamp, _⟩ :: _ => False
  | _ => True

/-- The span a pass is in. -/
def currentSpan : Happened → Option Span
  | [] => none
  | ⟨.enterSpan span, _⟩ :: _ => some span
  | _ :: log => currentSpan log

/-- The pass handles a claim being deleted. -/
def InDeletion (log : Happened) : Prop :=
  ∃ claimId, currentSpan log = some (.reconcileHostClaimDeletion claimId)

/-- The Host row written before `create`. -/
def provisioningIntent (host : HostRecord) : HostRecord :=
  { host with
    resource.status.phase := .provisioning
    retry := RetryState.default }

/-- The Host row written before `delete`. -/
def deletionIntent (host : HostRecord) (resource : ProviderResource) (now : Timestamp) :
    HostRecord :=
  { host with
    resource.status.phase := .deleting
    resource.status.providerResourceId := some resource.id
    resource.status.observedAt := some now
    retry := RetryState.default }

/-- The claim and the Host written for a deleting claim that hits an ownership conflict. -/
def deletionConflict (claim : HostClaimRecord) (host : HostRecord) (expected found : String)
    (now : Timestamp) : HostClaimRecord × HostRecord :=
  let failed := markHostFailed claim host "ProviderOwnershipConflict"
    (ownershipConflictMessage expected found) now
  (failed.1, { failed.2 with retry.nextReconcileAtUnixMs := some Int64.maxValue })

/-- A deleting claim has been entered and its Host read. -/
def deletionOpened (claim : HostClaimRecord) (host : HostRecord) (log : Happened) : Happened :=
  ⟨.getHost host.resource.id, .ok host⟩ ::
    ⟨.enterSpan (.reconcileHostClaimDeletion claim.resource.id), ()⟩ :: log

/-- The Host of a live claim has been read and entered. -/
def hostOpened (claim : HostClaimRecord) (host : HostRecord) (log : Happened) : Happened :=
  ⟨.enterSpan (.reconcileHost claim.resource.id host.resource.id), ()⟩ ::
    ⟨.getHost host.resource.id, .ok host⟩ :: log

/-- A live claim without a Host has been entered. -/
def claimOpened (claim : HostClaimRecord) (log : Happened) : Happened :=
  ⟨.enterSpan (.reconcileHostClaim claim.resource.id), ()⟩ :: log

/-- The Host an event read or observed. -/
def lookedAt : Event Effect Answer → Option HostId
  | ⟨.getHost hostId, _⟩ => some hostId
  | ⟨.provider (.observe hostId), _⟩ => some hostId
  | _ => none

/-- The pass read a Host with a provider resource recorded and observed another one. -/
def Conflict (log : Happened) (hostId : HostId) : Prop :=
  ∃ host resource expected, ⟨.getHost hostId, .ok host⟩ ∈ log ∧
    ⟨.provider (.observe hostId), .ok (.present resource)⟩ ∈ log ∧
    recordedElsewhere host resource = some expected

/-- Events that are not about the Host add no conflict. -/
theorem conflict_of_cons {event : Event Effect Answer} {events : Happened} {hostId : HostId}
    (hevent : lookedAt event = none) (h : Conflict (event :: events) hostId) :
    Conflict events hostId := by
  obtain ⟨host, resource, expected, hread, hobserved, hconflict⟩ := h
  refine ⟨host, resource, expected, ?_, ?_, hconflict⟩
  · rcases List.mem_cons.mp hread with rfl | hread
    · cases hevent
    · exact hread
  · rcases List.mem_cons.mp hobserved with rfl | hobserved
    · cases hevent
    · exact hobserved

/-- The pass may turn to `claim`: it is in the snapshot the pass took, outdated at most by a
    deletion request, and its Host has not been looked at. -/
structure Turn (nowMs : Int64) (claim : HostClaimRecord) (log : Happened) (db : Database) :
    Prop where
  snapshot : ∃ claims, claim ∈ claims ∧ [⟨.listClaims, .ok claims⟩, ⟨.nowUnixMs, nowMs⟩] <:+ log
  unseen : ∀ hostId, claim.resource.status.hostId = some hostId →
    ∀ event ∈ log, lookedAt event ≠ some hostId
  truthful : claim.Truthful
  fresh : db.Fresh claim

/-- The pass has turned to `claim` and its due Host, read as `host` and now stored as
    `stored`. -/
structure HostTurn (nowMs : Int64) (claim : HostClaimRecord) (host stored : HostRecord)
    (log : Happened) (db : Database) : Prop extends Turn nowMs claim log db where
  due : host.retry.isDue nowMs
  bound : claim.resource.status.hostId = some host.resource.id
  owner : host.resource.claimId = claim.resource.id
  typed : host.Typed
  kept : host.withStatus stored = stored
  stored : db.host? host.resource.id = some stored

/-- How `reconcile_host` comes to what it publishes: the events since `base`, the Host then
    stored, and the claim and the Host computed. -/
inductive Publishing (claim : HostClaimRecord) (host : HostRecord) (nowMs : Int64)
    (now : Timestamp) (base : Happened) :
    Happened → HostRecord → HostClaimRecord × HostRecord → Prop where
  | conflict {resource expected} : recordedElsewhere host resource = some expected →
      Publishing claim host nowMs now base
        (⟨.provider (.observe host.resource.id), .ok (.present resource)⟩ :: base) host
        (markHostFailed claim host "ProviderOwnershipConflict"
          (ownershipConflictMessage expected resource.id) now)
  | observed {resource} : recordedElsewhere host resource = none →
      Publishing claim host nowMs now base
        (⟨.provider (.observe host.resource.id), .ok (.present resource)⟩ :: base) host
        (applyProviderObservation claim host resource now)
  | absent : host.resource.status.providerResourceId.isSome ∨
        host.resource.status.phase ≠ .pending →
      Publishing claim host nowMs now base
        (⟨.provider (.observe host.resource.id), .ok .absent⟩ :: base) host
        (markProviderAbsent claim host now)
  | observeError {error} :
      Publishing claim host nowMs now base
        (⟨.provider (.observe host.resource.id), .error error⟩ :: base) host
        (scheduleHostProviderError claim host error nowMs now)
  | created {resource} :
      Publishing claim host nowMs now base
        (⟨.provider (.create host.resource.id host.providerPlanId), .ok (.created resource)⟩ ::
          ⟨.saveHost (provisioningIntent host), .ok ()⟩ ::
          ⟨.provider (.observe host.resource.id), .ok .absent⟩ :: base)
        (provisioningIntent host)
        (applyProviderObservation claim (provisioningIntent host) resource now)
  | createUnknown :
      Publishing claim host nowMs now base
        (⟨.provider (.create host.resource.id host.providerPlanId), .ok .outcomeUnknown⟩ ::
          ⟨.saveHost (provisioningIntent host), .ok ()⟩ ::
          ⟨.provider (.observe host.resource.id), .ok .absent⟩ :: base)
        (provisioningIntent host)
        (markOutcomeUnknown claim (provisioningIntent host) "CreateOutcomeUnknown"
          "The provider may have created the Host. The next step will rediscover it by Host ID."
          nowMs now)
  | createError {error} :
      Publishing claim host nowMs now base
        (⟨.provider (.create host.resource.id host.providerPlanId), .error error⟩ ::
          ⟨.saveHost (provisioningIntent host), .ok ()⟩ ::
          ⟨.provider (.observe host.resource.id), .ok .absent⟩ :: base)
        (provisioningIntent host)
        (scheduleHostProviderError claim (provisioningIntent host) error nowMs now)

/-- What holds where `reconcile_once` awaits an effect. -/
inductive AwaitPoint : Happened → Database → Effect → Prop where
  | nowUnixMs {db} : AwaitPoint [] db .nowUnixMs
  | listClaims {nowMs db} : AwaitPoint [⟨.nowUnixMs, nowMs⟩] db .listClaims
  | nowTimestamp {log db} : Quiet log → AwaitPoint log db .nowTimestamp
  | wake {log db} : Quiet log → AwaitPoint log db .wake
  -- a claim being deleted
  | enterDeletion {nowMs claim log db} : Turn nowMs claim log db → Quiet log →
      claim.resource.deletionTimestamp.isSome →
      AwaitPoint log db (.enterSpan (.reconcileHostClaimDeletion claim.resource.id))
  | finalizeUnbound {nowMs claim log db} : Turn nowMs claim log db →
      claim.resource.deletionTimestamp.isSome → claim.resource.status.hostId = none →
      AwaitPoint
        (⟨.enterSpan (.reconcileHostClaimDeletion claim.resource.id), ()⟩ :: log) db
        (.finalizeClaim claim.resource.id)
  | readDeletingHost {nowMs claim hostId log db} : Turn nowMs claim log db →
      claim.resource.deletionTimestamp.isSome → claim.resource.status.hostId = some hostId →
      AwaitPoint
        (⟨.enterSpan (.reconcileHostClaimDeletion claim.resource.id), ()⟩ :: log) db
        (.getHost hostId)
  | observeDeleting {nowMs claim host log db} : HostTurn nowMs claim host host log db →
      claim.resource.deletionTimestamp.isSome →
      AwaitPoint (deletionOpened claim host log) db (.provider (.observe host.resource.id))
  | finalizeAbsent {nowMs claim host log db} : HostTurn nowMs claim host host log db →
      claim.resource.deletionTimestamp.isSome →
      AwaitPoint
        (⟨.provider (.observe host.resource.id), .ok .absent⟩ :: deletionOpened claim host log) db
        (.finalizeClaim claim.resource.id)
  | saveDeletionConflict {nowMs claim host resource expected now log db} :
      HostTurn nowMs claim host host log db → claim.resource.deletionTimestamp.isSome →
      recordedElsewhere host resource = some expected →
      AwaitPoint
        (⟨.nowTimestamp, now⟩ ::
          ⟨.provider (.observe host.resource.id), .ok (.present resource)⟩ ::
          deletionOpened claim host log) db
        (.saveHost (deletionConflict claim host expected resource.id now).2)
  | publishDeletionConflict {nowMs claim host resource expected now log db} :
      HostTurn nowMs claim host (deletionConflict claim host expected resource.id now).2 log db →
      claim.resource.deletionTimestamp.isSome →
      recordedElsewhere host resource = some expected →
      AwaitPoint
        (⟨.saveHost (deletionConflict claim host expected resource.id now).2, .ok ()⟩ ::
          ⟨.nowTimestamp, now⟩ ::
          ⟨.provider (.observe host.resource.id), .ok (.present resource)⟩ ::
          deletionOpened claim host log) db
        (.saveClaimStatus (deletionConflict claim host expected resource.id now).1)
  | saveDeletionIntent {nowMs claim host resource now log db} :
      HostTurn nowMs claim host host log db → claim.resource.deletionTimestamp.isSome →
      recordedElsewhere host resource = none →
      AwaitPoint
        (⟨.nowTimestamp, now⟩ ::
          ⟨.provider (.observe host.resource.id), .ok (.present resource)⟩ ::
          deletionOpened claim host log) db
        (.saveHost (deletionIntent host resource now))
  | delete {nowMs claim host resource now log db} :
      HostTurn nowMs claim host (deletionIntent host resource now) log db →
      claim.resource.deletionTimestamp.isSome → recordedElsewhere host resource = none →
      AwaitPoint
        (⟨.saveHost (deletionIntent host resource now), .ok ()⟩ ::
          ⟨.nowTimestamp, now⟩ ::
          ⟨.provider (.observe host.resource.id), .ok (.present resource)⟩ ::
          deletionOpened claim host log) db
        (.provider (.delete host.resource.id))
  | saveDeleted {nowMs claim host resource now answer log db} :
      HostTurn nowMs claim host (deletionIntent host resource now) log db →
      claim.resource.deletionTimestamp.isSome → recordedElsewhere host resource = none →
      AwaitPoint
        (⟨.provider (.delete host.resource.id), answer⟩ ::
          ⟨.saveHost (deletionIntent host resource now), .ok ()⟩ ::
          ⟨.nowTimestamp, now⟩ ::
          ⟨.provider (.observe host.resource.id), .ok (.present resource)⟩ ::
          deletionOpened claim host log) db
        (.saveHost (Controller.afterDelete (deletionIntent host resource now) nowMs answer))
  | saveRetryOnly {nowMs claim host error log db} :
      HostTurn nowMs claim host host log db → claim.resource.deletionTimestamp.isSome →
      AwaitPoint
        (⟨.provider (.observe host.resource.id), .error error⟩ :: deletionOpened claim host log) db
        (.saveHost (scheduleHostRetryOnly host error nowMs))
  -- a live claim with a Host
  | readHost {nowMs claim hostId log db} : Turn nowMs claim log db → Quiet log →
      claim.resource.deletionTimestamp = none → claim.resource.status.hostId = some hostId →
      AwaitPoint log db (.getHost hostId)
  | enterHost {nowMs claim host log db} : HostTurn nowMs claim host host log db →
      claim.resource.deletionTimestamp = none →
      AwaitPoint (⟨.getHost host.resource.id, .ok host⟩ :: log) db
        (.enterSpan (.reconcileHost claim.resource.id host.resource.id))
  | observe {nowMs claim host log db} : HostTurn nowMs claim host host log db →
      claim.resource.deletionTimestamp = none →
      AwaitPoint (hostOpened claim host log) db (.provider (.observe host.resource.id))
  | saveIntent {nowMs claim host log db} : HostTurn nowMs claim host host log db →
      claim.resource.deletionTimestamp = none →
      host.resource.status.providerResourceId = none → host.resource.status.phase = .pending →
      AwaitPoint
        (⟨.provider (.observe host.resource.id), .ok .absent⟩ :: hostOpened claim host log) db
        (.saveHost (provisioningIntent host))
  | create {nowMs claim host log db} :
      HostTurn nowMs claim host (provisioningIntent host) log db →
      claim.resource.deletionTimestamp = none →
      host.resource.status.providerResourceId = none → host.resource.status.phase = .pending →
      AwaitPoint
        (⟨.saveHost (provisioningIntent host), .ok ()⟩ ::
          ⟨.provider (.observe host.resource.id), .ok .absent⟩ :: hostOpened claim host log) db
        (.provider (.create host.resource.id host.providerPlanId))
  | saveHost {nowMs claim host stored now updated events log db} :
      HostTurn nowMs claim host stored log db → claim.resource.deletionTimestamp = none →
      Publishing claim host nowMs now (hostOpened claim host log) events stored updated →
      host.resource.status.phase ≠ .failed →
      AwaitPoint (⟨.nowTimestamp, now⟩ :: events) db (.saveHost updated.2)
  | saveClaimStatus {nowMs claim host stored now updated events log db} :
      HostTurn nowMs claim host updated.2 log db → claim.resource.deletionTimestamp = none →
      Publishing claim host nowMs now (hostOpened claim host log) events stored updated →
      AwaitPoint (⟨.saveHost updated.2, .ok ()⟩ :: ⟨.nowTimestamp, now⟩ :: events) db
        (.saveClaimStatus updated.1)
  -- a live claim without a Host
  | enterClaim {nowMs claim log db} : Turn nowMs claim log db → Quiet log →
      claim.resource.deletionTimestamp = none → claim.resource.status.hostId = none →
      AwaitPoint log db (.enterSpan (.reconcileHostClaim claim.resource.id))
  | selectPlan {nowMs claim log db} : Turn nowMs claim log db →
      claim.resource.deletionTimestamp = none → claim.resource.status.hostId = none →
      AwaitPoint (claimOpened claim log) db
        (.provider (.selectPlan claim.resource.spec.resources))
  | ensureHost {nowMs claim plan log db} : Turn nowMs claim log db →
      claim.resource.deletionTimestamp = none → claim.resource.status.hostId = none →
      AwaitPoint
        (⟨.provider (.selectPlan claim.resource.spec.resources), .ok (some plan)⟩ ::
          claimOpened claim log) db
        (.ensureHost claim.resource.id plan.id plan.resources)
  | saveUnsatisfiable {nowMs claim now log db} : Turn nowMs claim log db →
      claim.resource.deletionTimestamp = none → claim.resource.status.hostId = none →
      AwaitPoint
        (⟨.nowTimestamp, now⟩ ::
          ⟨.provider (.selectPlan claim.resource.spec.resources), .ok none⟩ ::
          claimOpened claim log) db
        (.saveClaimStatus (markUnsatisfiable claim now).1)
  | saveProviderError {nowMs claim error now log db} : Turn nowMs claim log db →
      claim.resource.deletionTimestamp = none → claim.resource.status.hostId = none →
      AwaitPoint
        (⟨.nowTimestamp, now⟩ ::
          ⟨.provider (.selectPlan claim.resource.spec.resources), .error error⟩ ::
          claimOpened claim log) db
        (.saveClaimStatus (scheduleClaimProviderError claim error nowMs now))

/-! ## What the await points say -/

section AwaitPoints

variable {nowMs : Int64} {claim : HostClaimRecord} {host stored : HostRecord} {log : Happened}
  {db db' : Database}

theorem Turn.rely (turn : Turn nowMs claim log db) (hrely : db.Rely db') :
    Turn nowMs claim log db' :=
  { turn with fresh := turn.fresh.rely hrely }

theorem HostTurn.rely (turn : HostTurn nowMs claim host stored log db) (hrely : db.Rely db') :
    HostTurn nowMs claim host stored log db' :=
  { turn with
    toTurn := turn.toTurn.rely hrely
    stored := by rw [hrely.hosts, turn.stored] }

/-- A deleting claim is stored as the pass read it. -/
theorem Turn.stored_of_deleting (turn : Turn nowMs claim log db)
    (hdeleting : claim.resource.deletionTimestamp.isSome) :
    db.claim? claim.resource.id = some claim :=
  turn.fresh.stored_of_deleting hdeleting

/-- The claim a status computed in a turn would be written to is the claim of the turn. -/
theorem Turn.stored_eq {record current : HostClaimRecord} (turn : Turn nowMs claim log db)
    (hkept : claim.withStatus record = record)
    (hcurrent : db.claim? record.resource.id = some current)
    (hdeletion : current.resource.deletionTimestamp = record.resource.deletionTimestamp) :
    current = claim := by
  rw [← hkept] at hcurrent hdeletion
  exact turn.fresh.eq_of_deletionTimestamp hcurrent hdeletion

/-- Saving another status of the Host a turn is about. -/
theorem HostTurn.saved {record : HostRecord} (turn : HostTurn nowMs claim host stored log db)
    (hkept : host.withStatus record = record) (readable : db.Readable)
    (hsave : Storage.saveHost record db = .ok ((), db')) :
    HostTurn nowMs claim host record log db' ∧ db'.claim? = db.claim? := by
  have hid : record.resource.id = host.resource.id := by
    rw [← hkept]
    rfl
  obtain ⟨current, hcurrent, -, hclaim, hhost⟩ := Storage.saveHost_ok readable hsave
  rw [hid, turn.stored] at hcurrent
  cases hcurrent
  have hrecord : stored.withStatus record = record := by
    rw [← turn.kept]
    exact hkept
  refine ⟨{ turn with
    toTurn := { turn.toTurn with fresh := ?_ }
    kept := hkept
    stored := ?_ }, hclaim⟩
  · unfold Database.Fresh
    rw [hclaim]
    exact turn.fresh
  · rw [hhost, hid, Function.update_self, hrecord]

/-- What is published is computed from the claim and the Host of the turn. -/
theorem Publishing.publishes {now : Timestamp} {base events : Happened}
    {updated : HostClaimRecord × HostRecord}
    (h : Publishing claim host nowMs now base events stored updated) (hclaim : claim.Typed)
    (hhost : host.Typed) : Publishes claim host updated := by
  have hintent : (provisioningIntent host).Typed := hhost
  have hpublishes : ∀ {updated}, Publishes claim (provisioningIntent host) updated →
      Publishes claim host updated := fun h => { h with hostKept := h.hostKept }
  cases h with
  | conflict => exact publishes_markHostFailed hclaim hhost _ _ _
  | observed => exact publishes_applyProviderObservation hclaim hhost _ _
  | absent => exact publishes_markProviderAbsent hclaim hhost _
  | observeError => exact publishes_scheduleHostProviderError hclaim hhost _ _ _
  | created => exact hpublishes (publishes_applyProviderObservation hclaim hintent _ _)
  | createUnknown => exact hpublishes (publishes_markOutcomeUnknown hclaim hintent _ _ _ _)
  | createError => exact hpublishes (publishes_scheduleHostProviderError hclaim hintent _ _ _)

theorem Publishing.suffix {now : Timestamp} {events : Happened}
    {updated : HostClaimRecord × HostRecord}
    (h : Publishing claim host nowMs now (hostOpened claim host log) events stored updated) :
    log <:+ events := by
  cases h with
  | conflict | observed | absent | observeError => exact ⟨[_, _, _], rfl⟩
  | created | createUnknown | createError => exact ⟨[_, _, _, _, _], rfl⟩

theorem Publishing.span {now : Timestamp} {events : Happened}
    {updated : HostClaimRecord × HostRecord}
    (h : Publishing claim host nowMs now (hostOpened claim host log) events stored updated) :
    currentSpan events = some (.reconcileHost claim.resource.id host.resource.id) := by
  cases h <;> rfl

theorem Publishing.not_inDeletion {now : Timestamp} {updated : HostClaimRecord × HostRecord}
    (h : Publishing claim host nowMs now (hostOpened claim host log) events stored updated) :
    ¬ InDeletion (⟨.nowTimestamp, now⟩ :: events) := by
  rintro ⟨claimId, hspan⟩
  cases h <;> cases hspan

/-- The row of a Host that is about to be published was kept, or is the intent to create. -/
theorem Publishing.stored_cases {now : Timestamp} {base events : Happened}
    {updated : HostClaimRecord × HostRecord}
    (h : Publishing claim host nowMs now base events stored updated) :
    stored = host ∨ stored = provisioningIntent host := by
  cases h <;> simp

/-- After `delete` only the retry state of the Host is another one. -/
theorem afterDelete_eq (host : HostRecord) (nowMs : Int64)
    (answer : Except ProviderError DeleteOutcome) :
    ∃ retry, Controller.afterDelete host nowMs answer = { host with retry := retry } := by
  cases answer with
  | ok outcome => cases outcome <;> exact ⟨_, rfl⟩
  | error error => exact ⟨_, rfl⟩

theorem kept_scheduleClaimProviderError (claim : HostClaimRecord) (error : ProviderError)
    (nowMs : Int64) (now : Timestamp) :
    claim.withStatus (scheduleClaimProviderError claim error nowMs now) =
      scheduleClaimProviderError claim error nowMs now := by
  cases error <;> rfl

/-- A claim status about to be saved was computed from the snapshot of a turn. -/
theorem AwaitPoint.saveClaimStatus_turn {record : HostClaimRecord}
    (h : AwaitPoint log db (.saveClaimStatus record)) :
    ∃ nowMs claim base, Turn nowMs claim base db ∧ base <:+ log ∧
      claim.withStatus record = record := by
  cases h with
  | publishDeletionConflict turn =>
    exact ⟨_, _, _, turn.toTurn, ⟨[_, _, _, _, _], rfl⟩, rfl⟩
  | saveClaimStatus turn _ publishing =>
    have hpublishes := publishing.publishes turn.truthful.typed turn.typed
    refine ⟨_, _, _, turn.toTurn, ?_, hpublishes.claimKept⟩
    exact (publishing.suffix.trans (List.suffix_cons _ _)).trans (List.suffix_cons _ _)
  | saveUnsatisfiable turn => exact ⟨_, _, _, turn, ⟨[_, _, _], rfl⟩, rfl⟩
  | saveProviderError turn =>
    exact ⟨_, _, _, turn, ⟨[_, _, _], rfl⟩, kept_scheduleClaimProviderError _ _ _ _⟩

theorem Turn.generation_lt (turn : Turn nowMs claim log db) :
    claim.resource.generation.toNat < 2 ^ 63 := by
  rcases turn.fresh with hstored | ⟨-, now, hstored⟩
  · exact Database.claim?_generation hstored
  · have hlt := Database.claim?_generation hstored
    exact hlt

/-- A claim status about to be saved observes the generation of its claim. -/
theorem AwaitPoint.saveClaimStatus_fits {record : HostClaimRecord}
    (h : AwaitPoint log db (.saveClaimStatus record)) :
    record.resource.status.observedGeneration.toNat < 2 ^ 63 := by
  cases h with
  | @publishDeletionConflict nowMs claim host resource expected now log db turn =>
    have hobserved :
        (deletionConflict claim host expected resource.id now).1.resource.status.observedGeneration =
          claim.resource.generation :=
      turn.truthful.observed (by rw [turn.bound]; rfl)
    rw [hobserved]
    exact turn.generation_lt
  | saveClaimStatus turn _ publishing =>
    have hpublishes := publishing.publishes turn.truthful.typed turn.typed
    rw [hpublishes.observed (turn.truthful.observed (by rw [turn.bound]; rfl))]
    exact turn.generation_lt
  | saveUnsatisfiable turn => exact turn.generation_lt
  | @saveProviderError nowMs claim error now log db turn =>
    have hobserved :
        (scheduleClaimProviderError claim error nowMs now).resource.status.observedGeneration =
          claim.resource.generation := by
      cases error <;> rfl
    rw [hobserved]
    exact turn.generation_lt

/-- A Host about to be saved belongs to a claim being deleted, is about to be created, or is being
    published. -/
theorem AwaitPoint.saveHost_cases {record : HostRecord} (h : AwaitPoint log db (.saveHost record)) :
    (∃ nowMs claim host stored base, HostTurn nowMs claim host stored base db ∧
      claim.resource.deletionTimestamp.isSome ∧ record.resource.id = host.resource.id) ∨
    (∃ stored, db.host? record.resource.id = some stored ∧ record = provisioningIntent stored) ∨
    ∃ nowMs claim host stored now updated events base,
      HostTurn nowMs claim host stored base db ∧ claim.resource.deletionTimestamp = none ∧
      Publishing claim host nowMs now (hostOpened claim host base) events stored updated ∧
      log = ⟨.nowTimestamp, now⟩ :: events ∧ record = updated.2 := by
  cases h with
  | saveDeletionConflict turn hdeleting | saveDeletionIntent turn hdeleting
  | saveRetryOnly turn hdeleting =>
    exact .inl ⟨_, _, _, _, _, turn, hdeleting, rfl⟩
  | saveDeleted turn hdeleting =>
    obtain ⟨retry, hretry⟩ := afterDelete_eq (deletionIntent _ _ _) _ _
    rw [hretry]
    exact .inl ⟨_, _, _, _, _, turn, hdeleting, rfl⟩
  | saveIntent turn => exact .inr (.inl ⟨_, turn.stored, rfl⟩)
  | saveHost turn hlive publishing =>
    exact .inr (.inr ⟨_, _, _, _, _, _, _, _, turn, hlive, publishing, rfl, rfl⟩)

/-- A claim about to be finalized is being deleted, and has no Host or one whose observation was
    just answered Absent. -/
theorem AwaitPoint.finalizeClaim_cases {claimId : HostClaimId}
    (h : AwaitPoint log db (.finalizeClaim claimId)) :
    ∃ claim, db.claim? claimId = some claim ∧ claim.resource.deletionTimestamp.isSome ∧
      (claim.resource.status.hostId = none ∨
        ∃ hostId, claim.resource.status.hostId = some hostId ∧
          ⟨.provider (.observe hostId), .ok .absent⟩ ∈ log.head?) := by
  cases h with
  | finalizeUnbound turn hdeleting hunbound =>
    exact ⟨_, turn.stored_of_deleting hdeleting, hdeleting, .inl hunbound⟩
  | finalizeAbsent turn hdeleting =>
    exact ⟨_, turn.stored_of_deleting hdeleting, hdeleting, .inr ⟨_, turn.bound, rfl⟩⟩

end AwaitPoints

end ControlPlane
