import ControlPlane.Controller.Outcomes

/-!
# The claims a pass visits

An undisturbed pass is a chain of idle turns that ends with the last claim, or with a turn that
made progress or failed. An idle turn writes at most the two rows of its own claim and Host, and
a turn only asks about its own claim and Host.
-/

namespace ControlPlane

open Interaction Controller

variable {σ : Type}

/-! ## Idle turns -/

/-- What an idle turn can do. -/
inductive IdleTurn (P : ProviderModel σ) (nowMs : Int64) (claim : HostClaimRecord)
    (log : Happened) (db : Database) (s : σ) : Database → σ → Happened → Prop where
  | releasePostponed {host} : claim.resource.deletionTimestamp.isSome → Opened claim host db →
      host.retry.isDue nowMs = false →
      IdleTurn P nowMs claim log db s db s (deletionOpened claim host log)
  | skipped {host} : claim.resource.deletionTimestamp = none → Opened claim host db →
      host.retry.isDue nowMs = false ∨ host.resource.status.phase = .failed →
      IdleTurn P nowMs claim log db s db s (⟨.getHost host.resource.id, .ok host⟩ :: log)
  | observed {host resource now s' middle saved db' log'} : Usable nowMs claim host db →
      P.answers s (.observe host.resource.id) (.ok (.present resource)) s' →
      recordedElsewhere host resource = none → providerObservationIsStable host resource = true →
      Storage.saveHost (applyProviderObservation claim host resource now).2 db =
        .ok ((), middle) →
      Storage.saveClaimStatus (applyProviderObservation claim host resource now).1 middle =
        .ok (saved, db') →
      Persisted (applyProviderObservation claim host resource now).1 middle
        (⟨.saveHost (applyProviderObservation claim host resource now).2, .ok ()⟩ ::
          ⟨.nowTimestamp, now⟩ ::
          ⟨.provider (.observe host.resource.id), .ok (.present resource)⟩ ::
          hostOpened claim host log) (.ok ()) db' log' →
      IdleTurn P nowMs claim log db s db' s' log'
  | postponed : claim.resource.deletionTimestamp = none → claim.resource.status.hostId = none →
      claim.retry.isDue nowMs = false → IdleTurn P nowMs claim log db s db s log
  | assignStale {plan hostId now error s'} : Unbound nowMs claim →
      P.answers s (.selectPlan claim.resource.spec.resources) (.ok (some plan)) s' →
      (∀ row ∈ db.hosts, row.id ≠ hostId) →
      Storage.ensureHost claim.resource.id plan.id plan.resources hostId now db = .error error →
      error.stale = true →
      IdleTurn P nowMs claim log db s db s'
        (⟨.wake, ()⟩ :: ⟨.ensureHost claim.resource.id plan.id plan.resources, .error error⟩ ::
          ⟨.provider (.selectPlan claim.resource.spec.resources), .ok (some plan)⟩ ::
          claimOpened claim log)
  | unsatisfiable {now s'} : Unbound nowMs claim →
      P.answers s (.selectPlan claim.resource.spec.resources) (.ok none) s' →
      (markUnsatisfiable claim now).2 = false →
      IdleTurn P nowMs claim log db s db s'
        (⟨.nowTimestamp, now⟩ ::
          ⟨.provider (.selectPlan claim.resource.spec.resources), .ok none⟩ ::
          claimOpened claim log)

/-! ## Chains of turns -/

/-- Idle turns of some claims, one after the other. -/
inductive Idled (P : ProviderModel σ) (nowMs : Int64) : List HostClaimRecord →
    Happened → Database → σ → Database → σ → Happened → Prop where
  | nil {log db s} : Idled P nowMs [] log db s db s log
  | cons {claim rest log db s db₁ s₁ log₁ db' s' log'} :
      IdleTurn P nowMs claim log db s db₁ s₁ log₁ → Idled P nowMs rest log₁ db₁ s₁ db' s' log' →
      Idled P nowMs (claim :: rest) log db s db' s' log'

/-- Idle turns until a claim makes progress or fails. -/
inductive Visits (P : ProviderModel σ) (nowMs : Int64) (claims : List HostClaimRecord)
    (log : Happened) (db : Database) (s : σ) :
    Except AppError ReconcileResult → Database → σ → Happened → Prop where
  | idle {db' s' log'} : Idled P nowMs claims log db s db' s' log' →
      Visits P nowMs claims log db s (.ok .idle) db' s' log'
  | stopped {before claim rest db₁ s₁ log₁ result db' s' log'} :
      claims = before ++ claim :: rest → Idled P nowMs before log db s db₁ s₁ log₁ →
      TurnOutcome P nowMs claim log₁ db₁ s₁ result db' s' log' → result ≠ .ok .idle →
      Visits P nowMs claims log db s result db' s' log'

/-- The events of a pass once it has its snapshot. -/
def snapshotTaken (nowMs : Int64) (claims : List HostClaimRecord) : Happened :=
  [⟨.listClaims, .ok claims⟩, ⟨.nowUnixMs, nowMs⟩]

/-- A pass visits the claims it has listed, unless it cannot list them. -/
inductive PassOutcome (P : ProviderModel σ) (nowMs : Int64) (db : Database) (s : σ) :
    Except AppError ReconcileResult → Database → σ → Happened → Prop where
  | unlisted {error} : Storage.listClaims db = .error error →
      PassOutcome P nowMs db s (.error error) db s
        [⟨.listClaims, .error error⟩, ⟨.nowUnixMs, nowMs⟩]
  | listed {claims result db' s' log} : Storage.listClaims db = .ok claims →
      Visits P nowMs (visited nowMs claims) (snapshotTaken nowMs claims) db s result db' s' log →
      PassOutcome P nowMs db s result db' s' log

/-! ## Runs as chains of turns -/

variable {P : ProviderModel σ} {nowMs : Int64} {claim : HostClaimRecord}
  {claims rest : List HostClaimRecord} {log log' : Happened} {db db' : Database} {s s' : σ}
  {world world' : World σ} {result : Except AppError ReconcileResult}

theorem progressOf_ne_idle {α : Type} (answer : Except AppError α) :
    .ok ReconcileResult.idle ≠ progressOf answer := by
  cases answer <;> exact fun h => by cases h

theorem Persisted.ok {record : HostClaimRecord}
    (h : Persisted record db log (.ok ()) db' log') :
    ∃ saved, Storage.saveClaimStatus record db = .ok (saved, db') := by
  cases h with
  | saved hsave => exact ⟨true, hsave⟩
  | stale hsave => exact ⟨false, hsave⟩

/-- A turn that was idle. -/
theorem TurnOutcome.idle (h : TurnOutcome P nowMs claim log db s (.ok .idle) db' s' log') :
    IdleTurn P nowMs claim log db s db' s' log' := by
  generalize hresult : (Except.ok ReconcileResult.idle : Except AppError ReconcileResult) =
    result at h
  cases h with
  | releasePostponed hdeleting opened hdue => exact .releasePostponed hdeleting opened hdue
  | skipped hlive opened hskip => exact .skipped hlive opened hskip
  | postponed hlive hunbound hdue => exact .postponed hlive hunbound hdue
  | assignStale unbound hanswers hfresh hrefused hstale =>
    exact .assignStale unbound hanswers hfresh hrefused hstale
  | unsatisfiable unbound hanswers hsame => exact .unsatisfiable unbound hanswers hsame
  | @observed host resource now s₁ answer db₁ log₁ usable hanswers hsame hpublished =>
    cases answer with
    | error error => cases hresult
    | ok =>
      cases hpublished with
      | saved hsave hpersisted =>
        obtain ⟨saved, hclaim⟩ := hpersisted.ok
        refine .observed usable hanswers hsame ?_ hsave hclaim hpersisted
        by_contra hunstable
        simp [Except.map, hunstable] at hresult
  | assigned => cases hresult
  | releaseUnread | unread | releaseRefused | intentRefused | assignRefused => cases hresult
  | finalizedUnbound | finalizedAbsent | releaseConflict | released | releaseError | conflict
  | absent | observeError | created | rejected | planError =>
    exact absurd hresult (progressOf_ne_idle _)

theorem mem_visited (h : claim ∈ visited nowMs claims) : claim ∈ claims := by
  rcases List.mem_append.mp h with h | h <;> exact (List.mem_filter.mp h).1

theorem visits_of_runs
    (h : Runs (World.exec P) (turns nowMs claims).run world log result world' log') :
    Visits P nowMs claims log world.database world.provider result world'.database
      world'.provider log' := by
  induction claims generalizing world log with
  | nil =>
    cases h
    exact .idle .nil
  | cons claim rest ih =>
    rw [turns_cons] at h
    obtain ⟨answer, middle, middleLog, hturn, h⟩ := runs_attempt h
    have houtcome := turnOutcome_of_runs hturn
    rcases answer with error | _ | _
    · obtain ⟨rfl, rfl, rfl⟩ := h
      exact .stopped (List.nil_append _).symm .nil houtcome fun h => by cases h
    · cases h
      exact .stopped (List.nil_append _).symm .nil houtcome fun h => by cases h
    · cases ih h with
      | idle hidled => exact .idle (.cons houtcome.idle hidled)
      | stopped hrest hidled hstop hne =>
        exact .stopped (by rw [hrest, List.cons_append]) (.cons houtcome.idle hidled) hstop hne

theorem Pass.outcome (hpass : Pass P world result world' log) :
    ∃ nowMs, 0 ≤ nowMs ∧ PassOutcome P nowMs world.database world.provider result
      world'.database world'.provider log := by
  have hruns : Runs (World.exec P) Controller.reconcileOnce.run world [] result world' log := hpass
  rw [reconcileOnce_eq] at hruns
  obtain ⟨nowMs, clocked, ⟨hnonneg, rfl⟩, h⟩ := runs_ask hruns
  obtain ⟨listed, middle, middleLog, hlist, h⟩ := runs_attempt h
  obtain ⟨⟨hlisted, rfl⟩, rfl⟩ := runs_perform hlist
  refine ⟨nowMs, hnonneg, ?_⟩
  cases listed with
  | error error =>
    obtain ⟨rfl, rfl, rfl⟩ := h
    exact .unlisted hlisted.symm
  | ok claims => exact .listed hlisted.symm (visits_of_runs h)

/-! ## What a turn asks about -/

/-- An event that is about no other claim and no other Host. -/
def About (claim : HostClaimRecord) : Event Effect Answer → Prop
  | ⟨.enterSpan span, _⟩ => span.claimId = claim.resource.id
  | ⟨.getHost hostId, _⟩ => claim.resource.status.hostId = some hostId
  | ⟨.provider (.observe hostId), _⟩ => claim.resource.status.hostId = some hostId
  | _ => True

/-- What was logged meanwhile is about the claim. -/
def Logged (claim : HostClaimRecord) (log log' : Happened) : Prop :=
  ∃ events, log' = events ++ log ∧ ∀ event ∈ events, About claim event

theorem Logged.refl (claim : HostClaimRecord) (log : Happened) : Logged claim log log :=
  ⟨[], rfl, fun _ h => by cases h⟩

theorem Logged.cons {event : Event Effect Answer} (h : Logged claim log log')
    (habout : About claim event) : Logged claim log (event :: log') := by
  obtain ⟨events, rfl, hevents⟩ := h
  refine ⟨event :: events, rfl, fun other hmem => ?_⟩
  rcases List.mem_cons.mp hmem with rfl | hmem
  · exact habout
  · exact hevents other hmem

theorem Opened.deletion_logged {host : HostRecord} (opened : Opened claim host db) :
    Logged claim log (deletionOpened claim host log) :=
  .cons (.cons (.refl claim log) rfl) opened.bound

theorem Opened.host_logged {host : HostRecord} (opened : Opened claim host db) :
    Logged claim log (hostOpened claim host log) :=
  .cons (.cons (.refl claim log) opened.bound) rfl

theorem Persisted.logged {record : HostClaimRecord} {base : Happened}
    {answer : Except AppError Unit}
    (h : Persisted record db log answer db' log') (hlog : Logged claim base log) :
    Logged claim base log' := by
  cases h with
  | refused | saved => exact .cons hlog trivial
  | stale => exact .cons (.cons hlog trivial) trivial

theorem Published.logged {updated : HostClaimRecord × HostRecord} {base : Happened}
    {answer : Except AppError Unit} (h : Published updated db log answer db' log')
    (hlog : Logged claim base log) : Logged claim base log' := by
  cases h with
  | refused => exact .cons hlog trivial
  | saved _ hpersisted => exact hpersisted.logged (.cons hlog trivial)

/-- A turn asks about its claim. -/
theorem TurnOutcome.logged (h : TurnOutcome P nowMs claim log db s result db' s' log') :
    Logged claim log log' := by
  have hentered : Logged claim log
      (⟨.enterSpan (.reconcileHostClaimDeletion claim.resource.id), ()⟩ :: log) :=
    .cons (.refl claim log) rfl
  have hclaimOpened : Logged claim log (claimOpened claim log) := .cons (.refl claim log) rfl
  cases h with
  | finalizedUnbound => exact .cons hentered trivial
  | releaseUnread _ hbound => exact .cons hentered hbound
  | releasePostponed _ opened => exact opened.deletion_logged
  | finalizedAbsent releasable | releaseError releasable =>
    exact .cons (.cons releasable.deletion_logged releasable.bound) trivial
  | releaseConflict releasable _ _ hpublished =>
    exact hpublished.logged (.cons (.cons releasable.deletion_logged releasable.bound) trivial)
  | releaseRefused releasable =>
    exact .cons (.cons (.cons releasable.deletion_logged releasable.bound) trivial) trivial
  | released releasable =>
    exact .cons (.cons (.cons (.cons (.cons releasable.deletion_logged releasable.bound) trivial)
      trivial) trivial) trivial
  | unread _ hbound => exact .cons (.refl claim log) hbound
  | skipped _ opened => exact .cons (.refl claim log) opened.bound
  | conflict usable _ _ hpublished | observed usable _ _ hpublished
  | absent usable _ _ hpublished | observeError usable _ hpublished =>
    exact hpublished.logged (.cons (.cons usable.host_logged usable.bound) trivial)
  | intentRefused usable => exact .cons (.cons usable.host_logged usable.bound) trivial
  | created usable _ _ _ _ _ hpublished =>
    exact hpublished.logged
      (.cons (.cons (.cons (.cons usable.host_logged usable.bound) trivial) trivial) trivial)
  | postponed => exact .refl claim log
  | assigned | assignRefused | unsatisfiable => exact .cons (.cons hclaimOpened trivial) trivial
  | assignStale => exact .cons (.cons (.cons hclaimOpened trivial) trivial) trivial
  | rejected _ _ _ hpersisted | planError _ _ hpersisted =>
    exact hpersisted.logged (.cons (.cons hclaimOpened trivial) trivial)

theorem IdleTurn.logged (h : IdleTurn P nowMs claim log db s db' s' log') :
    Logged claim log log' := by
  have hclaimOpened : Logged claim log (claimOpened claim log) := .cons (.refl claim log) rfl
  cases h with
  | releasePostponed _ opened => exact opened.deletion_logged
  | skipped _ opened => exact .cons (.refl claim log) opened.bound
  | observed usable _ _ _ _ _ hpersisted =>
    exact hpersisted.logged
      (.cons (.cons (.cons usable.host_logged usable.bound) trivial) trivial)
  | postponed => exact .refl claim log
  | assignStale => exact .cons (.cons (.cons hclaimOpened trivial) trivial) trivial
  | unsatisfiable => exact .cons (.cons hclaimOpened trivial) trivial

/-! ## What an idle turn leaves alone -/

/-- The records of a claim and of its Host are the same in both states. -/
def Kept (claim : HostClaimRecord) (db db' : Database) : Prop :=
  db'.claim? claim.resource.id = db.claim? claim.resource.id ∧
    ∀ hostId, claim.resource.status.hostId = some hostId → db'.host? hostId = db.host? hostId

theorem Kept.refl (claim : HostClaimRecord) (db : Database) : Kept claim db db :=
  ⟨rfl, fun _ _ => rfl⟩

theorem Kept.trans {middle : Database} (first : Kept claim db middle)
    (second : Kept claim middle db') : Kept claim db db' :=
  ⟨second.1.trans first.1, fun hostId hbound =>
    (second.2 hostId hbound).trans (first.2 hostId hbound)⟩

/-- What `reconcile_host` publishes belongs to the claim and the Host it works on. -/
theorem applyProviderObservation_ids (claim : HostClaimRecord) (host : HostRecord)
    (resource : ProviderResource) (now : Timestamp) :
    (applyProviderObservation claim host resource now).1.resource.id = claim.resource.id ∧
      (applyProviderObservation claim host resource now).2.resource.id = host.resource.id :=
  ⟨rfl, rfl⟩

/-- Two saves touch one claim and one Host. -/
theorem kept_of_saves {updated : HostClaimRecord × HostRecord} {host stored : HostRecord}
    {other : HostClaimRecord} {middle : Database} {saved : Bool}
    (hsave : Storage.saveHost updated.2 db = .ok ((), middle))
    (hstored : db.host? updated.2.resource.id = some stored)
    (hclaim : Storage.saveClaimStatus updated.1 middle = .ok (saved, db'))
    (hids : updated.1.resource.id = claim.resource.id ∧
      updated.2.resource.id = host.resource.id)
    (hbound : claim.resource.status.hostId = some host.resource.id)
    (hfollows : Follows claim other) :
    Kept other db db' := by
  obtain ⟨hclaims, hhosts⟩ := Storage.saveHost_records hsave hstored
  obtain ⟨hclaims', hhosts'⟩ := Storage.saveClaimStatus_frame hclaim
  refine ⟨?_, fun hostId hother => ?_⟩
  · rw [hclaims' _ (by rw [hids.1]; exact hfollows.1), hclaims]
  · have hne : hostId ≠ updated.2.resource.id := by
      rintro rfl
      rw [hids.2] at hother
      exact hfollows.2 _ hbound hother
    rw [hhosts', hhosts, Function.update_of_ne hne]

/-- An idle turn leaves the other claims and Hosts alone. -/
theorem IdleTurn.kept {other : HostClaimRecord}
    (h : IdleTurn P nowMs claim log db s db' s' log') (hfollows : Follows claim other) :
    Kept other db db' := by
  cases h with
  | @observed host resource now _ middle saved _ _ usable _ _ _ hsave hclaim =>
    exact kept_of_saves hsave (Database.getHost_eq_ok.mp usable.stored) hclaim
      (applyProviderObservation_ids claim host resource now) usable.bound hfollows
  | _ => exact .refl other _

/-- Idle turns of other claims leave a claim and its Host alone. -/
theorem Idled.kept {other : HostClaimRecord} (h : Idled P nowMs claims log db s db' s' log')
    (hfollows : ∀ claim ∈ claims, Follows claim other) : Kept other db db' := by
  induction h with
  | nil => exact .refl other _
  | cons hturn _ ih =>
    exact (hturn.kept (hfollows _ List.mem_cons_self)).trans
      (ih fun claim hmem => hfollows claim (List.mem_cons_of_mem _ hmem))

/-- A claim stored afterwards was stored before, with the same deletion timestamp and Host. -/
def Traced (db db' : Database) : Prop :=
  ∀ id claim, db'.claim? id = some claim → ∃ stored, db.claim? id = some stored ∧
    stored.resource.deletionTimestamp = claim.resource.deletionTimestamp ∧
    stored.resource.status.hostId = claim.resource.status.hostId

theorem Traced.refl (db : Database) : Traced db db :=
  fun _ claim hclaim => ⟨claim, hclaim, rfl, rfl⟩

theorem Traced.trans {middle : Database} (first : Traced db middle) (second : Traced middle db') :
    Traced db db' := by
  intro id claim hclaim
  obtain ⟨middleClaim, hmiddle, hdeletion, hbound⟩ := second id claim hclaim
  obtain ⟨stored, hstored, hdeletion', hbound'⟩ := first id middleClaim hmiddle
  exact ⟨stored, hstored, hdeletion'.trans hdeletion, hbound'.trans hbound⟩

/-- A saved status leaves the deletion timestamps and the Hosts of all claims alone. -/
theorem traced_saveClaimStatus {record : HostClaimRecord} {saved : Bool} (readable : db.Readable)
    (h : Storage.saveClaimStatus record db = .ok (saved, db')) :
    db'.Readable ∧ Traced db db' := by
  rcases Storage.saveClaimStatus_ok readable h with
    ⟨-, readable', -, stored, hstored, -, hclaims⟩ | ⟨-, rfl, -⟩
  · refine ⟨readable', fun id claim hclaim => ?_⟩
    rw [hclaims] at hclaim
    by_cases hid : id = record.resource.id
    · rw [hid, Function.update_self] at hclaim
      cases hclaim
      exact ⟨stored, hid ▸ hstored, rfl, rfl⟩
    · rw [Function.update_of_ne hid] at hclaim
      exact ⟨claim, hclaim, rfl, rfl⟩
  · exact ⟨readable, .refl _⟩

theorem IdleTurn.traced (h : IdleTurn P nowMs claim log db s db' s' log')
    (readable : db.Readable) : db'.Readable ∧ Traced db db' := by
  cases h with
  | observed _ _ _ _ hsave hpersist =>
    obtain ⟨-, -, readable', hclaims, -⟩ := Storage.saveHost_ok readable hsave
    obtain ⟨readable'', htraced⟩ := traced_saveClaimStatus readable' hpersist
    refine ⟨readable'', fun id claim hclaim => ?_⟩
    rw [← hclaims]
    exact htraced id claim hclaim
  | _ => exact ⟨readable, .refl _⟩

theorem Idled.traced (h : Idled P nowMs claims log db s db' s' log') (readable : db.Readable) :
    db'.Readable ∧ Traced db db' := by
  induction h with
  | nil => exact ⟨readable, .refl _⟩
  | cons hturn _ ih =>
    obtain ⟨readable₁, hfirst⟩ := hturn.traced readable
    obtain ⟨readable', hrest⟩ := ih readable₁
    exact ⟨readable', hfirst.trans hrest⟩

/-- A chain of idle turns in two parts. -/
theorem Idled.of_append {before : List HostClaimRecord}
    (h : Idled P nowMs (before ++ rest) log db s db' s' log') :
    ∃ db₁ s₁ log₁, Idled P nowMs before log db s db₁ s₁ log₁ ∧
      Idled P nowMs rest log₁ db₁ s₁ db' s' log' := by
  induction before generalizing log db s with
  | nil => exact ⟨_, _, _, .nil, h⟩
  | cons claim before ih =>
    cases h with
    | cons hturn hrest =>
      obtain ⟨db₁, s₁, log₁, hfirst, hsecond⟩ := ih hrest
      exact ⟨db₁, s₁, log₁, .cons hturn hfirst, hsecond⟩

/-- Different claims follow each other in either order. -/
theorem Follows.symm {other : HostClaimRecord} (h : Follows claim other) : Follows other claim :=
  ⟨h.1.symm, fun hostId hother hclaim => h.2 hostId hclaim hother⟩

theorem Logged.suffix (h : Logged claim log log') : log <:+ log' := by
  obtain ⟨events, rfl, -⟩ := h
  exact List.suffix_append _ _

theorem Idled.suffix (h : Idled P nowMs claims log db s db' s' log') : log <:+ log' := by
  induction h with
  | nil => exact List.suffix_refl _
  | cons hturn _ ih => exact hturn.logged.suffix.trans ih

/-- The turn of one of the claims of a chain, with its records as they were before the chain and
    as they are after it. -/
theorem Idled.turn_of_mem (h : Idled P nowMs claims log db s db' s' log')
    (hfollows : claims.Pairwise Follows) (hmem : claim ∈ claims) :
    ∃ db₁ s₁ log₁ db₂ s₂ log₂, IdleTurn P nowMs claim log₁ db₁ s₁ db₂ s₂ log₂ ∧
      Kept claim db db₁ ∧ Kept claim db₂ db' ∧ log₂ <:+ log' := by
  obtain ⟨before, rest, rfl⟩ := List.append_of_mem hmem
  obtain ⟨hbefore, hafter, hacross⟩ := List.pairwise_append.mp hfollows
  obtain ⟨db₁, s₁, log₁, hfirst, hrest⟩ := h.of_append
  cases hrest with
  | cons hturn hrest =>
    refine ⟨db₁, s₁, log₁, _, _, _, hturn, hfirst.kept fun other hother => ?_,
      hrest.kept fun other hother => ?_, hrest.suffix⟩
    · exact hacross other hother claim List.mem_cons_self
    · exact ((List.pairwise_cons.mp hafter).1 other hother).symm

/-- Events of a chain that are about some claim come from it. -/
theorem Idled.logged (h : Idled P nowMs claims log db s db' s' log') :
    ∃ events, log' = events ++ log ∧ ∀ event ∈ events, ∃ claim ∈ claims, About claim event := by
  induction h with
  | nil => exact ⟨[], rfl, fun _ h => by cases h⟩
  | cons hturn _ ih =>
    obtain ⟨first, rfl, hfirst⟩ := hturn.logged
    obtain ⟨second, rfl, hsecond⟩ := ih
    refine ⟨second ++ first, (List.append_assoc _ _ _).symm, fun event hmem => ?_⟩
    rcases List.mem_append.mp hmem with hmem | hmem
    · obtain ⟨claim, hclaim, habout⟩ := hsecond event hmem
      exact ⟨claim, List.mem_cons_of_mem _ hclaim, habout⟩
    · exact ⟨_, List.mem_cons_self, hfirst event hmem⟩

theorem Visits.suffix (h : Visits P nowMs claims log db s result db' s' log') : log <:+ log' := by
  cases h with
  | idle hidled => exact hidled.suffix
  | stopped _ hidled hstop => exact hidled.suffix.trans hstop.logged.suffix

/-- The first event of a pass is its clock reading. -/
theorem PassOutcome.clock (h : PassOutcome P nowMs db s result db' s' log) :
    log.getLast? = some ⟨.nowUnixMs, nowMs⟩ := by
  cases h with
  | unlisted => rfl
  | listed _ hvisits =>
    obtain ⟨events, rfl⟩ := hvisits.suffix
    simp [snapshotTaken, List.getLast?_append]

/-- The outcome of a pass at the time it read. -/
theorem Pass.outcome_at (hpass : Pass P world result world' log)
    (hclock : log.getLast? = some ⟨.nowUnixMs, nowMs⟩) :
    PassOutcome P nowMs world.database world.provider result world'.database world'.provider
      log := by
  obtain ⟨clock, -, houtcome⟩ := hpass.outcome
  have hread := houtcome.clock
  rw [hclock] at hread
  cases hread
  exact houtcome

end ControlPlane
