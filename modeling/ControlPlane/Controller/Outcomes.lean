import ControlPlane.Controller.Walk

/-!
# What an undisturbed pass does

A pass goes through the claims of its snapshot one by one, first the due ones that are being
deleted, then the live ones, and stops at the first that made progress or failed. `TurnOutcome`
says everything the turn of one claim can do when nobody interferes: what it read, how the
provider answered, what it stored, and what is in the log afterwards.
-/

namespace ControlPlane

open Interaction

namespace Controller

/-- What `reconcile_once` does for a claim it goes through: the body of the loop the claim is
    in. -/
def turn (nowMs : Int64) (claim : HostClaimRecord) : Controller ReconcileResult :=
  if claim.resource.deletionTimestamp.isSome then do
    ask (.enterSpan (.reconcileHostClaimDeletion claim.resource.id))
    reconcileDeletingClaim claim nowMs
  else
    match claim.resource.status.hostId with
    | some hostId => do
      let host ← getHost hostId
      if !host.retry.isDue nowMs ∨ host.resource.status.phase = .failed then
        return .idle
      else
        ask (.enterSpan (.reconcileHost claim.resource.id hostId))
        reconcileHost claim host nowMs
    | none =>
      if !claim.retry.isDue nowMs then
        return .idle
      else do
        ask (.enterSpan (.reconcileHostClaim claim.resource.id))
        reconcileUnboundClaim claim nowMs

/-- One turn after the other, until a claim makes progress. -/
def turns (nowMs : Int64) : List HostClaimRecord → Controller ReconcileResult
  | [] => return .idle
  | claim :: rest => do
    match ← turn nowMs claim with
    | .progress => return .progress
    | .idle => turns nowMs rest

/-- The claims a pass goes through, in order. -/
def visited (nowMs : Int64) (claims : List HostClaimRecord) : List HostClaimRecord :=
  dueDeletions nowMs claims ++ liveClaims claims

/-! ## A pass as turns -/

theorem run_bind_congr {α β : Type} {first first' : Controller α} {next next' : α → Controller β}
    (hfirst : first.run = first'.run) (hnext : ∀ value, (next value).run = (next' value).run) :
    (first >>= next).run = (first' >>= next').run := by
  rw [run_bind, run_bind, hfirst]
  congr 1
  funext result
  cases result with
  | ok value => exact hnext value
  | error error => rfl

theorem run_bind_assoc {α β γ : Type} (program : Controller α) (first : α → Controller β)
    (second : β → Controller γ) :
    ((program >>= first) >>= second).run =
      (program >>= fun value => first value >>= second).run := by
  rw [run_bind, run_bind, run_bind, Program.bind_assoc]
  congr 1
  funext result
  cases result with
  | ok value => exact (run_bind _ _).symm
  | error error => rfl

theorem turns_cons (nowMs : Int64) (claim : HostClaimRecord) (rest : List HostClaimRecord) :
    (turns nowMs (claim :: rest)).run =
      (turn nowMs claim >>= thenTurns (turns nowMs rest)).run := by
  simp only [turns]
  refine run_bind_congr rfl fun result => ?_
  cases result <;> rfl

theorem thenTurns_assoc (first second : Controller ReconcileResult) (result : ReconcileResult) :
    (thenTurns first result >>= thenTurns second).run =
      (thenTurns (first >>= thenTurns second) result).run := by
  cases result <;> rfl

theorem turns_append (nowMs : Int64) (first rest : List HostClaimRecord) :
    (turns nowMs (first ++ rest)).run =
      (turns nowMs first >>= thenTurns (turns nowMs rest)).run := by
  induction first with
  | nil => rfl
  | cons claim first ih =>
    calc
      _ = (turn nowMs claim >>= thenTurns (turns nowMs (first ++ rest))).run := turns_cons ..
      _ = (turn nowMs claim >>= fun result =>
            thenTurns (turns nowMs first) result >>= thenTurns (turns nowMs rest)).run := by
        refine run_bind_congr rfl fun result => ?_
        rw [thenTurns_assoc]
        cases result with
        | progress => rfl
        | idle => exact ih
      _ = ((turn nowMs claim >>= thenTurns (turns nowMs first)) >>=
            thenTurns (turns nowMs rest)).run := (run_bind_assoc ..).symm
      _ = _ := run_bind_congr (turns_cons nowMs claim first).symm fun _ => rfl

theorem reconcileDeletions_eq (nowMs : Int64) (claims : List HostClaimRecord)
    (hdeleting : ∀ claim ∈ claims, claim.resource.deletionTimestamp.isSome = true) :
    (reconcileDeletions nowMs claims).run = (turns nowMs claims).run := by
  induction claims with
  | nil => rfl
  | cons claim rest ih =>
    have hturn : turn nowMs claim = (do
        ask (.enterSpan (.reconcileHostClaimDeletion claim.resource.id))
        reconcileDeletingClaim claim nowMs) :=
      if_pos (hdeleting claim List.mem_cons_self)
    rw [turns_cons, hturn, run_bind_assoc]
    simp only [reconcileDeletions]
    refine run_bind_congr rfl fun _ => run_bind_congr rfl fun result => ?_
    cases result with
    | progress => rfl
    | idle => exact ih fun claim hmem => hdeleting claim (List.mem_cons_of_mem _ hmem)

theorem reconcileClaims_eq (nowMs : Int64) (claims : List HostClaimRecord)
    (hlive : ∀ claim ∈ claims, claim.resource.deletionTimestamp.isNone = true) :
    (reconcileClaims nowMs claims).run = (turns nowMs claims).run := by
  induction claims with
  | nil => rfl
  | cons claim rest ih =>
    have ih := ih fun claim hmem => hlive claim (List.mem_cons_of_mem _ hmem)
    have hnotDeleting : ¬ claim.resource.deletionTimestamp.isSome = true := by
      simpa using hlive claim List.mem_cons_self
    have hgoOn : ∀ result : ReconcileResult,
        (match result with
          | .progress => return .progress
          | .idle => reconcileClaims nowMs rest : Controller ReconcileResult).run =
        (thenTurns (turns nowMs rest) result).run := by
      intro result
      cases result with
      | progress => rfl
      | idle => exact ih
    rw [turns_cons, turn, if_neg hnotDeleting]
    simp only [reconcileClaims]
    cases claim.resource.status.hostId with
    | none =>
      dsimp only
      by_cases hdue : (!claim.retry.isDue nowMs) = true
      · rw [if_pos hdue, if_pos hdue]
        exact ih
      · rw [if_neg hdue, if_neg hdue, run_bind_assoc]
        exact run_bind_congr rfl fun _ => run_bind_congr rfl hgoOn
    | some hostId =>
      dsimp only
      rw [run_bind_assoc]
      refine run_bind_congr rfl fun host => ?_
      by_cases hskip : (!host.retry.isDue nowMs) = true ∨ host.resource.status.phase = .failed
      · rw [if_pos hskip, if_pos hskip]
        exact ih
      · rw [if_neg hskip, if_neg hskip, run_bind_assoc]
        exact run_bind_congr rfl fun _ => run_bind_congr rfl hgoOn

/-- `reconcile_once` goes through the claims it visits. -/
theorem reconcileOnce_eq :
    reconcileOnce.run = (ask .nowUnixMs >>= fun nowMs => listClaims >>= fun claims =>
      turns nowMs (visited nowMs claims)).run := by
  unfold reconcileOnce
  refine run_bind_congr rfl fun nowMs => run_bind_congr rfl fun claims => ?_
  rw [visited, turns_append]
  refine run_bind_congr (reconcileDeletions_eq nowMs _ fun claim hmem => ?_) fun result => ?_
  · exact ((Bool.and_eq_true _ _).mp (List.mem_filter.mp hmem).2).1
  · cases result with
    | progress => rfl
    | idle => exact reconcileClaims_eq nowMs _ fun claim hmem => (List.mem_filter.mp hmem).2

end Controller

/-! ## What a turn can do -/

/-- `persist_claim_status`, undisturbed. -/
inductive Persisted (record : HostClaimRecord) (db : Database) (log : Happened) :
    Except AppError Unit → Database → Happened → Prop where
  | refused {error} : Storage.saveClaimStatus record db = .error error →
      Persisted record db log (.error error) db (⟨.saveClaimStatus record, .error error⟩ :: log)
  | saved {db'} : Storage.saveClaimStatus record db = .ok (true, db') →
      Persisted record db log (.ok ()) db' (⟨.saveClaimStatus record, .ok true⟩ :: log)
  | stale {db'} : Storage.saveClaimStatus record db = .ok (false, db') →
      Persisted record db log (.ok ()) db'
        (⟨.wake, ()⟩ :: ⟨.saveClaimStatus record, .ok false⟩ :: log)

/-- The two saves that publish a Host and its claim, undisturbed. -/
inductive Published (updated : HostClaimRecord × HostRecord) (db : Database) (log : Happened) :
    Except AppError Unit → Database → Happened → Prop where
  | refused {error} : Storage.saveHost updated.2 db = .error error →
      Published updated db log (.error error) db (⟨.saveHost updated.2, .error error⟩ :: log)
  | saved {db' answer db'' log'} : Storage.saveHost updated.2 db = .ok ((), db') →
      Persisted updated.1 db' (⟨.saveHost updated.2, .ok ()⟩ :: log) answer db'' log' →
      Published updated db log answer db'' log'

/-- The Host a claim is bound to, as it is stored. -/
structure Opened (claim : HostClaimRecord) (host : HostRecord) (db : Database) : Prop where
  bound : claim.resource.status.hostId = some host.resource.id
  stored : Storage.getHost db host.resource.id = .ok host

/-- A Host the second loop reconciles. -/
structure Usable (nowMs : Int64) (claim : HostClaimRecord) (host : HostRecord) (db : Database) :
    Prop extends Opened claim host db where
  live : claim.resource.deletionTimestamp = none
  due : host.retry.isDue nowMs = true
  notFailed : host.resource.status.phase ≠ .failed

/-- A Host the first loop deletes. -/
structure Releasable (nowMs : Int64) (claim : HostClaimRecord) (host : HostRecord)
    (db : Database) : Prop extends Opened claim host db where
  deleting : claim.resource.deletionTimestamp.isSome
  due : host.retry.isDue nowMs = true

/-- A claim the second loop finds a plan for. -/
structure Unbound (nowMs : Int64) (claim : HostClaimRecord) : Prop where
  live : claim.resource.deletionTimestamp = none
  unbound : claim.resource.status.hostId = none
  due : claim.retry.isDue nowMs = true

/-- The Host `reconcile_host` goes on with once its `create` was answered, and its claim. -/
def afterCreate (claim : HostClaimRecord) (host : HostRecord) (nowMs : Int64) (now : Timestamp) :
    Except ProviderError CreateOutcome → HostClaimRecord × HostRecord
  | .ok (.created resource) => applyProviderObservation claim (provisioningIntent host) resource now
  | .ok .outcomeUnknown =>
    markOutcomeUnknown claim (provisioningIntent host) "CreateOutcomeUnknown"
      "The provider may have created the Host. The next step will rediscover it by Host ID."
      nowMs now
  | .error error => scheduleHostProviderError claim (provisioningIntent host) error nowMs now

/-- The errors of `ensure_host` that mean that the claim changed meanwhile. -/
def AppError.stale : AppError → Bool
  | .conflict _ _ _ | .notFound _ _ => true
  | .invalidArgument _ | .internal _ => false

/-- The result of a turn whose last write was answered. -/
def progressOf {α : Type} (answer : Except AppError α) : Except AppError ReconcileResult :=
  answer.map fun _ => .progress

/-- Everything the turn of a claim can do undisturbed, from the events `log`, the database `db`
    and the provider's state `s`. -/
inductive TurnOutcome {σ : Type} (P : ProviderModel σ) (nowMs : Int64) (claim : HostClaimRecord)
    (log : Happened) (db : Database) (s : σ) :
    Except AppError ReconcileResult → Database → σ → Happened → Prop where
  -- a claim being deleted
  | finalizedUnbound {answer db'} : claim.resource.deletionTimestamp.isSome →
      claim.resource.status.hostId = none →
      Storage.run (Storage.finalizeClaim claim.resource.id) db = (answer, db') →
      TurnOutcome P nowMs claim log db s (progressOf answer) db' s
        (⟨.finalizeClaim claim.resource.id, answer⟩ ::
          ⟨.enterSpan (.reconcileHostClaimDeletion claim.resource.id), ()⟩ :: log)
  | releaseUnread {hostId error} : claim.resource.deletionTimestamp.isSome →
      claim.resource.status.hostId = some hostId → Storage.getHost db hostId = .error error →
      TurnOutcome P nowMs claim log db s (.error error) db s
        (⟨.getHost hostId, .error error⟩ ::
          ⟨.enterSpan (.reconcileHostClaimDeletion claim.resource.id), ()⟩ :: log)
  | releasePostponed {host} : claim.resource.deletionTimestamp.isSome → Opened claim host db →
      host.retry.isDue nowMs = false →
      TurnOutcome P nowMs claim log db s (.ok .idle) db s (deletionOpened claim host log)
  | finalizedAbsent {host s' answer db'} : Releasable nowMs claim host db →
      P.answers s (.observe host.resource.id) (.ok .absent) s' →
      Storage.run (Storage.finalizeClaim claim.resource.id) db = (answer, db') →
      TurnOutcome P nowMs claim log db s (progressOf answer) db' s'
        (⟨.finalizeClaim claim.resource.id, answer⟩ ::
          ⟨.provider (.observe host.resource.id), .ok .absent⟩ :: deletionOpened claim host log)
  | releaseConflict {host resource expected now s' answer db' log'} :
      Releasable nowMs claim host db →
      P.answers s (.observe host.resource.id) (.ok (.present resource)) s' →
      recordedElsewhere host resource = some expected →
      Published (deletionConflict claim host expected resource.id now) db
        (⟨.nowTimestamp, now⟩ ::
          ⟨.provider (.observe host.resource.id), .ok (.present resource)⟩ ::
          deletionOpened claim host log) answer db' log' →
      TurnOutcome P nowMs claim log db s (progressOf answer) db' s' log'
  | releaseRefused {host resource now s' error} : Releasable nowMs claim host db →
      P.answers s (.observe host.resource.id) (.ok (.present resource)) s' →
      recordedElsewhere host resource = none →
      Storage.saveHost (deletionIntent host resource now) db = .error error →
      TurnOutcome P nowMs claim log db s (.error error) db s'
        (⟨.saveHost (deletionIntent host resource now), .error error⟩ :: ⟨.nowTimestamp, now⟩ ::
          ⟨.provider (.observe host.resource.id), .ok (.present resource)⟩ ::
          deletionOpened claim host log)
  | released {host resource now s' middle deleted s'' answer db'} :
      Releasable nowMs claim host db →
      P.answers s (.observe host.resource.id) (.ok (.present resource)) s' →
      recordedElsewhere host resource = none →
      Storage.saveHost (deletionIntent host resource now) db = .ok ((), middle) →
      P.answers s' (.delete host.resource.id) deleted s'' →
      Storage.run (Storage.saveHost
        (Controller.afterDelete (deletionIntent host resource now) nowMs deleted)) middle =
          (answer, db') →
      TurnOutcome P nowMs claim log db s (progressOf answer) db' s''
        (⟨.saveHost (Controller.afterDelete (deletionIntent host resource now) nowMs deleted),
            answer⟩ ::
          ⟨.provider (.delete host.resource.id), deleted⟩ ::
          ⟨.saveHost (deletionIntent host resource now), .ok ()⟩ :: ⟨.nowTimestamp, now⟩ ::
          ⟨.provider (.observe host.resource.id), .ok (.present resource)⟩ ::
          deletionOpened claim host log)
  | releaseError {host error s' answer db'} : Releasable nowMs claim host db →
      P.answers s (.observe host.resource.id) (.error error) s' →
      Storage.run (Storage.saveHost (scheduleHostRetryOnly host error nowMs)) db = (answer, db') →
      TurnOutcome P nowMs claim log db s (progressOf answer) db' s'
        (⟨.saveHost (scheduleHostRetryOnly host error nowMs), answer⟩ ::
          ⟨.provider (.observe host.resource.id), .error error⟩ :: deletionOpened claim host log)
  -- a live claim with a Host
  | unread {hostId error} : claim.resource.deletionTimestamp = none →
      claim.resource.status.hostId = some hostId → Storage.getHost db hostId = .error error →
      TurnOutcome P nowMs claim log db s (.error error) db s
        (⟨.getHost hostId, .error error⟩ :: log)
  | skipped {host} : claim.resource.deletionTimestamp = none → Opened claim host db →
      host.retry.isDue nowMs = false ∨ host.resource.status.phase = .failed →
      TurnOutcome P nowMs claim log db s (.ok .idle) db s
        (⟨.getHost host.resource.id, .ok host⟩ :: log)
  | conflict {host resource expected now s' answer db' log'} : Usable nowMs claim host db →
      P.answers s (.observe host.resource.id) (.ok (.present resource)) s' →
      recordedElsewhere host resource = some expected →
      Published (markHostFailed claim host "ProviderOwnershipConflict"
          (ownershipConflictMessage expected resource.id) now) db
        (⟨.nowTimestamp, now⟩ ::
          ⟨.provider (.observe host.resource.id), .ok (.present resource)⟩ ::
          hostOpened claim host log) answer db' log' →
      TurnOutcome P nowMs claim log db s (progressOf answer) db' s' log'
  | observed {host resource now s' answer db' log'} : Usable nowMs claim host db →
      P.answers s (.observe host.resource.id) (.ok (.present resource)) s' →
      recordedElsewhere host resource = none →
      Published (applyProviderObservation claim host resource now) db
        (⟨.nowTimestamp, now⟩ ::
          ⟨.provider (.observe host.resource.id), .ok (.present resource)⟩ ::
          hostOpened claim host log) answer db' log' →
      TurnOutcome P nowMs claim log db s
        (answer.map fun _ =>
          if providerObservationIsStable host resource then .idle else .progress) db' s' log'
  | absent {host now s' answer db' log'} : Usable nowMs claim host db →
      P.answers s (.observe host.resource.id) (.ok .absent) s' →
      host.resource.status.providerResourceId.isSome ∨ host.resource.status.phase ≠ .pending →
      Published (markProviderAbsent claim host now) db
        (⟨.nowTimestamp, now⟩ :: ⟨.provider (.observe host.resource.id), .ok .absent⟩ ::
          hostOpened claim host log) answer db' log' →
      TurnOutcome P nowMs claim log db s (progressOf answer) db' s' log'
  | observeError {host error now s' answer db' log'} : Usable nowMs claim host db →
      P.answers s (.observe host.resource.id) (.error error) s' →
      Published (scheduleHostProviderError claim host error nowMs now) db
        (⟨.nowTimestamp, now⟩ :: ⟨.provider (.observe host.resource.id), .error error⟩ ::
          hostOpened claim host log) answer db' log' →
      TurnOutcome P nowMs claim log db s (progressOf answer) db' s' log'
  | intentRefused {host s' error} : Usable nowMs claim host db →
      P.answers s (.observe host.resource.id) (.ok .absent) s' →
      Storage.saveHost (provisioningIntent host) db = .error error →
      TurnOutcome P nowMs claim log db s (.error error) db s'
        (⟨.saveHost (provisioningIntent host), .error error⟩ ::
          ⟨.provider (.observe host.resource.id), .ok .absent⟩ :: hostOpened claim host log)
  | created {host now s' middle created s'' answer db' log'} : Usable nowMs claim host db →
      P.answers s (.observe host.resource.id) (.ok .absent) s' →
      host.resource.status.providerResourceId = none → host.resource.status.phase = .pending →
      Storage.saveHost (provisioningIntent host) db = .ok ((), middle) →
      P.answers s' (.create host.resource.id host.providerPlanId) created s'' →
      Published (afterCreate claim host nowMs now created) middle
        (⟨.nowTimestamp, now⟩ ::
          ⟨.provider (.create host.resource.id host.providerPlanId), created⟩ ::
          ⟨.saveHost (provisioningIntent host), .ok ()⟩ ::
          ⟨.provider (.observe host.resource.id), .ok .absent⟩ :: hostOpened claim host log)
        answer db' log' →
      TurnOutcome P nowMs claim log db s (progressOf answer) db' s'' log'
  -- a live claim without a Host
  | postponed : claim.resource.deletionTimestamp = none → claim.resource.status.hostId = none →
      claim.retry.isDue nowMs = false →
      TurnOutcome P nowMs claim log db s (.ok .idle) db s log
  | assigned {plan hostId now host s' db'} : Unbound nowMs claim →
      P.answers s (.selectPlan claim.resource.spec.resources) (.ok (some plan)) s' →
      (∀ row ∈ db.hosts, row.id ≠ hostId) →
      Storage.ensureHost claim.resource.id plan.id plan.resources hostId now db =
        .ok (host, db') →
      TurnOutcome P nowMs claim log db s (.ok .progress) db' s'
        (⟨.ensureHost claim.resource.id plan.id plan.resources, .ok host⟩ ::
          ⟨.provider (.selectPlan claim.resource.spec.resources), .ok (some plan)⟩ ::
          claimOpened claim log)
  | assignStale {plan hostId now error s'} : Unbound nowMs claim →
      P.answers s (.selectPlan claim.resource.spec.resources) (.ok (some plan)) s' →
      (∀ row ∈ db.hosts, row.id ≠ hostId) →
      Storage.ensureHost claim.resource.id plan.id plan.resources hostId now db = .error error →
      error.stale = true →
      TurnOutcome P nowMs claim log db s (.ok .idle) db s'
        (⟨.wake, ()⟩ :: ⟨.ensureHost claim.resource.id plan.id plan.resources, .error error⟩ ::
          ⟨.provider (.selectPlan claim.resource.spec.resources), .ok (some plan)⟩ ::
          claimOpened claim log)
  | assignRefused {plan hostId now error s'} : Unbound nowMs claim →
      P.answers s (.selectPlan claim.resource.spec.resources) (.ok (some plan)) s' →
      (∀ row ∈ db.hosts, row.id ≠ hostId) →
      Storage.ensureHost claim.resource.id plan.id plan.resources hostId now db = .error error →
      error.stale = false →
      TurnOutcome P nowMs claim log db s (.error error) db s'
        (⟨.ensureHost claim.resource.id plan.id plan.resources, .error error⟩ ::
          ⟨.provider (.selectPlan claim.resource.spec.resources), .ok (some plan)⟩ ::
          claimOpened claim log)
  | unsatisfiable {now s'} : Unbound nowMs claim →
      P.answers s (.selectPlan claim.resource.spec.resources) (.ok none) s' →
      (markUnsatisfiable claim now).2 = false →
      TurnOutcome P nowMs claim log db s (.ok .idle) db s'
        (⟨.nowTimestamp, now⟩ ::
          ⟨.provider (.selectPlan claim.resource.spec.resources), .ok none⟩ ::
          claimOpened claim log)
  | rejected {now s' answer db' log'} : Unbound nowMs claim →
      P.answers s (.selectPlan claim.resource.spec.resources) (.ok none) s' →
      (markUnsatisfiable claim now).2 = true →
      Persisted (markUnsatisfiable claim now).1 db
        (⟨.nowTimestamp, now⟩ ::
          ⟨.provider (.selectPlan claim.resource.spec.resources), .ok none⟩ ::
          claimOpened claim log) answer db' log' →
      TurnOutcome P nowMs claim log db s (progressOf answer) db' s' log'
  | planError {error now s' answer db' log'} : Unbound nowMs claim →
      P.answers s (.selectPlan claim.resource.spec.resources) (.error error) s' →
      Persisted (scheduleClaimProviderError claim error nowMs now) db
        (⟨.nowTimestamp, now⟩ ::
          ⟨.provider (.selectPlan claim.resource.spec.resources), .error error⟩ ::
          claimOpened claim log) answer db' log' →
      TurnOutcome P nowMs claim log db s (progressOf answer) db' s' log'

/-! ## Every run of a turn ends in one of these ways -/

section Runs

open Controller

variable {σ : Type} {P : ProviderModel σ} {nowMs : Int64} {claim : HostClaimRecord}
  {host : HostRecord} {world world' : World σ} {log log' : Happened}
  {result : Except AppError ReconcileResult}

/-- Awaiting an effect. -/
theorem runs_ask {α : Type} {effect : Effect} {next : Answer effect → Controller α}
    {result : Except AppError α}
    (h : Runs (World.exec P) (ask effect >>= next).run world log result world' log') :
    ∃ answer middle, World.exec P world effect answer middle ∧
      Runs (World.exec P) (next answer).run middle (⟨effect, answer⟩ :: log) result world'
        log' := by
  rw [run_ask_bind] at h
  cases h with
  | call hexec hrest => exact ⟨_, _, hexec, hrest⟩

/-- Awaiting a fallible effect. -/
theorem runs_attempt {α : Type} {program : Program Effect Answer (Except AppError α)}
    {β : Type} {next : α → Controller β} {result : Except AppError β}
    (h : Runs (World.exec P) (attempt program >>= next).run world log result world' log') :
    ∃ answer middle middleLog, Runs (World.exec P) program world log answer middle middleLog ∧
      match answer with
      | .ok value => Runs (World.exec P) (next value).run middle middleLog result world' log'
      | .error error => result = .error error ∧ world' = middle ∧ log' = middleLog := by
  rw [run_bind] at h
  obtain ⟨answer, middle, middleLog, hfirst, hrest⟩ := Runs.of_bind h
  refine ⟨answer, middle, middleLog, hfirst, ?_⟩
  cases answer with
  | ok value => exact hrest
  | error error =>
    cases hrest
    exact ⟨rfl, rfl, rfl⟩

/-- Doing one effect. -/
theorem runs_perform {effect : Effect} {answer : Answer effect}
    (h : Runs (World.exec P) (Program.perform effect) world log answer world' log') :
    World.exec P world effect answer world' ∧ log' = ⟨effect, answer⟩ :: log := by
  cases h with
  | call hexec hrest =>
    cases hrest
    exact ⟨hexec, rfl⟩

/-- What a mutator of `Storage` did. -/
theorem commits_run {α : Type} {operation : Database → Except AppError (α × Database)}
    {answer : Except AppError α} (h : World.commits operation world answer world') :
    Storage.run operation world.database = (answer, world'.database) ∧
      world'.provider = world.provider := by
  obtain ⟨rfl, rfl⟩ := h
  exact ⟨rfl, rfl⟩

theorem run_ok {α : Type} {operation : Database → Except AppError (α × Database)} {value : α}
    {db db' : Database} (h : Storage.run operation db = (.ok value, db')) :
    operation db = .ok (value, db') :=
  Storage.run_eq_ok.mp h

theorem run_refused {α : Type} {operation : Database → Except AppError (α × Database)}
    {error : AppError} {db db' : Database} (h : Storage.run operation db = (.error error, db')) :
    operation db = .error error ∧ db' = db := by
  unfold Storage.run at h
  split at h
  · cases h
  · rename_i herror
    cases h
    exact ⟨herror, rfl⟩

/-- A method that ends with one more effect. -/
theorem runs_return {α β : Type} {program : Controller α} {value : β} {result : Except AppError β}
    (h : Runs (World.exec P) (program >>= fun _ => pure value).run world log result world' log') :
    ∃ answer, Runs (World.exec P) program.run world log answer world' log' ∧
      result = answer.map fun _ => value := by
  obtain ⟨answer, middle, middleLog, hprogram, hrest⟩ := runs_attempt h
  cases answer with
  | ok answer =>
    cases hrest
    exact ⟨_, hprogram, rfl⟩
  | error error =>
    obtain ⟨rfl, rfl, rfl⟩ := hrest
    exact ⟨_, hprogram, rfl⟩

theorem runs_persistClaimStatus {record : HostClaimRecord} {answer : Except AppError Unit}
    (h : Runs (World.exec P) (persistClaimStatus record).run world log answer world' log') :
    Persisted record world.database log answer world'.database log' ∧
      world'.provider = world.provider := by
  obtain ⟨saved, middle, middleLog, hsave, hrest⟩ := runs_attempt h
  obtain ⟨hexec, rfl⟩ := runs_perform hsave
  obtain ⟨hrun, hprovider⟩ := commits_run hexec
  rcases saved with error | _ | _
  · obtain ⟨rfl, rfl, rfl⟩ := hrest
    obtain ⟨hrefused, hsame⟩ := run_refused hrun
    rw [hsame]
    exact ⟨.refused hrefused, hprovider⟩
  · cases hrest with
    | call hwake hdone =>
      cases hwake
      cases hdone
      exact ⟨.stale (run_ok hrun), hprovider⟩
  · cases hrest
    exact ⟨.saved (run_ok hrun), hprovider⟩

theorem runs_saveHost {record : HostRecord} {answer : Except AppError Unit}
    (h : Runs (World.exec P) (saveHost record).run world log answer world' log') :
    Storage.run (Storage.saveHost record) world.database = (answer, world'.database) ∧
      world'.provider = world.provider ∧ log' = ⟨.saveHost record, answer⟩ :: log := by
  obtain ⟨hexec, rfl⟩ := runs_perform h
  obtain ⟨hrun, hprovider⟩ := commits_run hexec
  exact ⟨hrun, hprovider, rfl⟩

theorem runs_publish {updated : HostClaimRecord × HostRecord} {answer : Except AppError Unit}
    (h : Runs (World.exec P) (publish updated).run world log answer world' log') :
    Published updated world.database log answer world'.database log' ∧
      world'.provider = world.provider := by
  obtain ⟨saved, middle, middleLog, hsave, hrest⟩ := runs_attempt h
  obtain ⟨hrun, hprovider, rfl⟩ := runs_saveHost hsave
  cases saved with
  | error error =>
    obtain ⟨rfl, rfl, rfl⟩ := hrest
    obtain ⟨hrefused, hsame⟩ := run_refused hrun
    rw [hsame]
    exact ⟨.refused hrefused, hprovider⟩
  | ok =>
    obtain ⟨hpersisted, hprovider'⟩ := runs_persistClaimStatus hrest
    exact ⟨.saved (run_ok hrun) hpersisted, hprovider'.trans hprovider⟩

/-- Publishing and returning. -/
theorem runs_publish_return {updated : HostClaimRecord × HostRecord} {value : ReconcileResult}
    (h : Runs (World.exec P) (publish updated >>= fun _ => pure value).run world log result world'
      log') :
    ∃ answer, Published updated world.database log answer world'.database log' ∧
      world'.provider = world.provider ∧ result = answer.map fun _ => value := by
  obtain ⟨answer, hpublish, hresult⟩ := runs_return h
  obtain ⟨hpublished, hprovider⟩ := runs_publish hpublish
  exact ⟨answer, hpublished, hprovider, hresult⟩

theorem provider_of_exec {call : ProviderCall} {answer : ProviderAnswer call}
    (h : World.exec P world (.provider call) answer world') :
    P.answers world.provider call answer world'.provider ∧ world'.database = world.database := by
  obtain ⟨provider, hanswers, rfl⟩ := h
  exact ⟨hanswers, rfl⟩

/-- Reading the clock, publishing and returning. -/
theorem runs_publish_now {update : Timestamp → HostClaimRecord × HostRecord}
    {value : ReconcileResult}
    (h : Runs (World.exec P) (ask .nowTimestamp >>= fun now =>
      publish (update now) >>= fun _ => pure value).run world log result world' log') :
    ∃ now answer, Published (update now) world.database (⟨.nowTimestamp, now⟩ :: log) answer
        world'.database log' ∧
      world'.provider = world.provider ∧ result = answer.map fun _ => value := by
  obtain ⟨now, middle, hnow, hrest⟩ := runs_ask h
  cases hnow
  obtain ⟨answer, hpublished, hprovider, hresult⟩ := runs_publish_return hrest
  exact ⟨now, answer, hpublished, hprovider, hresult⟩

theorem runs_reconcileHost (usable : Usable nowMs claim host world.database)
    (h : Runs (World.exec P) (reconcileHost claim host nowMs).run world
      (hostOpened claim host log) result world' log') :
    TurnOutcome P nowMs claim log world.database world.provider result world'.database
      world'.provider log' := by
  obtain ⟨observation, middle, hobserve, h⟩ := runs_ask h
  obtain ⟨hanswers, hdatabase⟩ := provider_of_exec hobserve
  rcases observation with error | _ | resource
  · obtain ⟨now, answer, hpublished, hprovider, rfl⟩ := runs_publish_now h
    rw [hdatabase] at hpublished
    rw [← hprovider] at hanswers
    exact .observeError usable hanswers hpublished
  · dsimp only at h
    split at h
    · rename_i hguard
      obtain ⟨now, answer, hpublished, hprovider, rfl⟩ := runs_publish_now h
      rw [hdatabase] at hpublished
      rw [← hprovider] at hanswers
      exact .absent usable hanswers hguard hpublished
    · rename_i hguard
      simp only [ne_eq, not_or, not_not, Option.not_isSome_iff_eq_none] at hguard
      obtain ⟨hunrecorded, hpending⟩ := hguard
      obtain ⟨saved, intended, intendedLog, hsave, hrest⟩ := runs_attempt h
      obtain ⟨hrun, hkept, rfl⟩ := runs_saveHost hsave
      rw [hdatabase] at hrun
      cases saved with
      | error error =>
        obtain ⟨rfl, rfl, rfl⟩ := hrest
        obtain ⟨hrefused, hsame⟩ := run_refused hrun
        rw [hsame, hkept]
        exact .intentRefused usable hanswers hrefused
      | ok =>
        obtain ⟨created, after, hcreate, hrest⟩ := runs_ask hrest
        obtain ⟨hcreated, hdatabase'⟩ := provider_of_exec hcreate
        have hrest : Runs (World.exec P) (ask .nowTimestamp >>= fun now =>
            publish (afterCreate claim host nowMs now created) >>= fun _ =>
              pure ReconcileResult.progress).run after
            (⟨.provider (.create host.resource.id host.providerPlanId), created⟩ ::
              ⟨.saveHost (provisioningIntent host), .ok ()⟩ ::
              ⟨.provider (.observe host.resource.id), .ok .absent⟩ :: hostOpened claim host log)
            result world' log' := by
          rcases created with error | ⟨resource⟩ | _ <;> exact hrest
        obtain ⟨now, answer, hpublished, hprovider, rfl⟩ := runs_publish_now hrest
        rw [hdatabase'] at hpublished
        rw [hkept, ← hprovider] at hcreated
        exact .created usable hanswers hunrecorded hpending (run_ok hrun) hcreated hpublished
  · dsimp only at h
    split at h
    · rename_i expected hexpected
      obtain ⟨now, answer, hpublished, hprovider, rfl⟩ := runs_publish_now h
      rw [hdatabase] at hpublished
      rw [← hprovider] at hanswers
      exact .conflict usable hanswers hexpected hpublished
    · rename_i hsame
      have hsame : recordedElsewhere host resource = none :=
        Option.eq_none_iff_forall_ne_some.mpr hsame
      obtain ⟨now, answer, hpublished, hprovider, rfl⟩ := runs_publish_now h
      rw [hdatabase] at hpublished
      rw [← hprovider] at hanswers
      exact .observed usable hanswers hsame hpublished

theorem runs_reconcileDeletingClaim (hdeleting : claim.resource.deletionTimestamp.isSome)
    (h : Runs (World.exec P) (reconcileDeletingClaim claim nowMs).run world
      (⟨.enterSpan (.reconcileHostClaimDeletion claim.resource.id), ()⟩ :: log) result world'
      log') :
    TurnOutcome P nowMs claim log world.database world.provider result world'.database
      world'.provider log' := by
  have hfinalize : ∀ {world world' : World σ} {log log' : Happened}
      {result : Except AppError ReconcileResult},
      Runs (World.exec P) (finalizeClaim claim.resource.id >>= fun _ =>
        pure ReconcileResult.progress).run world log result world' log' →
      ∃ answer, Storage.run (Storage.finalizeClaim claim.resource.id) world.database =
          (answer, world'.database) ∧ world'.provider = world.provider ∧
        log' = ⟨.finalizeClaim claim.resource.id, answer⟩ :: log ∧
        result = progressOf answer := by
    intro world world' log log' result h
    obtain ⟨answer, hrun, hresult⟩ := runs_return h
    obtain ⟨hexec, hlog⟩ := runs_perform hrun
    obtain ⟨hrun, hprovider⟩ := commits_run hexec
    exact ⟨answer, hrun, hprovider, hlog, hresult⟩
  have hsaveLast : ∀ {record : HostRecord} {world world' : World σ} {log log' : Happened}
      {result : Except AppError ReconcileResult},
      Runs (World.exec P) (saveHost record >>= fun _ => pure ReconcileResult.progress).run world
        log result world' log' →
      ∃ answer, Storage.run (Storage.saveHost record) world.database =
          (answer, world'.database) ∧ world'.provider = world.provider ∧
        log' = ⟨.saveHost record, answer⟩ :: log ∧ result = progressOf answer := by
    intro record world world' log log' result h
    obtain ⟨answer, hrun, hresult⟩ := runs_return h
    obtain ⟨hrun, hprovider, hlog⟩ := runs_saveHost hrun
    exact ⟨answer, hrun, hprovider, hlog, hresult⟩
  unfold reconcileDeletingClaim at h
  cases hbound : claim.resource.status.hostId with
  | none =>
    rw [hbound] at h
    obtain ⟨answer, hrun, hprovider, rfl, rfl⟩ := hfinalize h
    rw [hprovider]
    exact .finalizedUnbound hdeleting hbound hrun
  | some hostId =>
  rw [hbound] at h
  obtain ⟨read, middle, middleLog, hread, h⟩ := runs_attempt h
  obtain ⟨⟨hfetch, rfl⟩, rfl⟩ := runs_perform hread
  cases read with
  | error error =>
    obtain ⟨rfl, rfl, rfl⟩ := h
    exact .releaseUnread hdeleting hbound hfetch.symm
  | ok host =>
  have hid : host.resource.id = hostId :=
    Database.host?_id (Database.getHost_eq_ok.mp hfetch.symm)
  rw [← hid] at hbound hfetch h
  have opened : Opened claim host middle.database := ⟨hbound, hfetch.symm⟩
  dsimp only at h
  split at h
  · rename_i hdue
    cases h
    exact .releasePostponed hdeleting opened (by simpa using hdue)
  · rename_i hdue
    have releasable : Releasable nowMs claim host middle.database :=
      ⟨opened, hdeleting, by simpa using hdue⟩
    obtain ⟨observation, after, hobserve, h⟩ := runs_ask h
    obtain ⟨hanswers, hdatabase⟩ := provider_of_exec hobserve
    rcases observation with error | _ | resource
    · obtain ⟨answer, hrun, hprovider, rfl, rfl⟩ := hsaveLast h
      rw [hdatabase] at hrun
      rw [← hprovider] at hanswers
      exact .releaseError releasable hanswers hrun
    · obtain ⟨answer, hrun, hprovider, rfl, rfl⟩ := hfinalize h
      rw [hdatabase] at hrun
      rw [← hprovider] at hanswers
      exact .finalizedAbsent releasable hanswers hrun
    · dsimp only at h
      split at h
      · rename_i expected hexpected
        have h : Runs (World.exec P) (ask .nowTimestamp >>= fun now =>
            publish (deletionConflict claim host expected resource.id now) >>= fun _ =>
              pure ReconcileResult.progress).run after
            (⟨.provider (.observe host.resource.id), .ok (.present resource)⟩ ::
              deletionOpened claim host log) result world' log' := h
        obtain ⟨now, answer, hpublished, hprovider, rfl⟩ := runs_publish_now h
        rw [hdatabase] at hpublished
        rw [← hprovider] at hanswers
        exact .releaseConflict releasable hanswers hexpected hpublished
      · rename_i hsame
        have hsame : recordedElsewhere host resource = none :=
          Option.eq_none_iff_forall_ne_some.mpr hsame
        obtain ⟨now, read, hnow, h⟩ := runs_ask h
        cases hnow
        obtain ⟨saved, intended, intendedLog, hsave, h⟩ := runs_attempt h
        obtain ⟨hrun, hkept, rfl⟩ := runs_saveHost hsave
        rw [hdatabase] at hrun
        cases saved with
        | error error =>
          obtain ⟨rfl, rfl, rfl⟩ := h
          obtain ⟨hrefused, hunchanged⟩ := run_refused hrun
          rw [hunchanged, hkept]
          exact .releaseRefused releasable hanswers hsame hrefused
        | ok =>
          obtain ⟨deleted, last, hdelete, h⟩ := runs_ask h
          obtain ⟨hdeleted, hdatabase'⟩ := provider_of_exec hdelete
          obtain ⟨answer, hlast, hprovider, rfl, rfl⟩ := hsaveLast h
          rw [hdatabase'] at hlast
          rw [hkept, ← hprovider] at hdeleted
          exact .released releasable hanswers hsame (run_ok hrun) hdeleted hlast

theorem runs_reconcileUnboundClaim (unbound : Unbound nowMs claim)
    (h : Runs (World.exec P) (reconcileUnboundClaim claim nowMs).run world (claimOpened claim log)
      result world' log') :
    TurnOutcome P nowMs claim log world.database world.provider result world'.database
      world'.provider log' := by
  obtain ⟨planned, middle, hselect, h⟩ := runs_ask h
  obtain ⟨hanswers, hdatabase⟩ := provider_of_exec hselect
  rcases planned with error | _ | plan
  · obtain ⟨now, read, hnow, h⟩ := runs_ask h
    cases hnow
    obtain ⟨answer, hpersist, rfl⟩ := runs_return h
    obtain ⟨hpersisted, hprovider⟩ := runs_persistClaimStatus hpersist
    rw [hdatabase] at hpersisted
    rw [← hprovider] at hanswers
    exact .planError unbound hanswers hpersisted
  · obtain ⟨now, read, hnow, h⟩ := runs_ask h
    cases hnow
    dsimp only at h
    split at h
    · rename_i hchanged
      obtain ⟨answer, hpersist, rfl⟩ := runs_return h
      obtain ⟨hpersisted, hprovider⟩ := runs_persistClaimStatus hpersist
      rw [hdatabase] at hpersisted
      rw [← hprovider] at hanswers
      exact .rejected unbound hanswers hchanged hpersisted
    · rename_i hchanged
      cases h
      rw [hdatabase]
      exact .unsatisfiable unbound hanswers (by simpa using hchanged)
  · obtain ⟨assigned, after, hensure, h⟩ := runs_ask h
    obtain ⟨hostId, now, hfresh, hcommits⟩ := hensure
    obtain ⟨hrun, hprovider⟩ := commits_run hcommits
    rw [hdatabase] at hrun hfresh
    rw [← hprovider] at hanswers
    rcases assigned with error | host
    · obtain ⟨hrefused, hsame⟩ := run_refused hrun
      cases error with
      | conflict | notFound =>
        obtain ⟨_, woken, hwake, h⟩ := runs_ask h
        cases hwake
        cases h
        dsimp only
        rw [hsame]
        exact .assignStale unbound hanswers hfresh hrefused rfl
      | invalidArgument | internal =>
        cases h
        rw [hsame]
        exact .assignRefused unbound hanswers hfresh hrefused rfl
    · cases h
      exact .assigned unbound hanswers hfresh (run_ok hrun)

/-- Every run of a turn has one of the outcomes. -/
theorem turnOutcome_of_runs
    (h : Runs (World.exec P) (turn nowMs claim).run world log result world' log') :
    TurnOutcome P nowMs claim log world.database world.provider result world'.database
      world'.provider log' := by
  unfold turn at h
  split at h
  · rename_i hdeleting
    obtain ⟨_, entered, henter, h⟩ := runs_ask h
    cases henter
    exact runs_reconcileDeletingClaim hdeleting h
  · rename_i hlive
    have hlive : claim.resource.deletionTimestamp = none := by simpa using hlive
    split at h
    · rename_i hostId hbound
      obtain ⟨read, middle, middleLog, hread, h⟩ := runs_attempt h
      obtain ⟨⟨hfetch, rfl⟩, rfl⟩ := runs_perform hread
      cases read with
      | error error =>
        obtain ⟨rfl, rfl, rfl⟩ := h
        exact .unread hlive hbound hfetch.symm
      | ok host =>
      have hid : host.resource.id = hostId :=
        Database.host?_id (Database.getHost_eq_ok.mp hfetch.symm)
      rw [← hid] at hbound hfetch h
      have opened : Opened claim host middle.database := ⟨hbound, hfetch.symm⟩
      dsimp only at h
      split at h
      · rename_i hskip
        cases h
        exact .skipped hlive opened (by simpa using hskip)
      · rename_i hskip
        simp only [Bool.not_eq_true', not_or, Bool.not_eq_false] at hskip
        obtain ⟨_, entered, henter, h⟩ := runs_ask h
        cases henter
        exact runs_reconcileHost ⟨opened, hlive, hskip.1, hskip.2⟩ h
    · rename_i hbound
      split at h
      · rename_i hdue
        cases h
        exact .postponed hlive hbound (by simpa using hdue)
      · rename_i hdue
        obtain ⟨_, entered, henter, h⟩ := runs_ask h
        cases henter
        exact runs_reconcileUnboundClaim ⟨hlive, hbound, by simpa using hdue⟩ h

end Runs

end ControlPlane
