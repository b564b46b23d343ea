import ControlPlane.Controller.Scenario
import ControlPlane.Controller.Visits

/-!
# One failing claim and the others

`reconcile_once` returns at the first error. So where the handling of a claim fails, another due
claim was handled in that pass exactly if the pass visits it earlier; the claims it visits later
are not asked about, in this pass or in any later one that fails in the same way.
-/

namespace ControlPlane

open Interaction Controller

variable {σ : Type} {P : ProviderModel σ} {nowMs : Int64} {claim failing other : HostClaimRecord}
  {claims : List HostClaimRecord} {log log' : Happened} {db db' : Database} {s s' : σ}
  {world world' : World σ} {result : Except AppError ReconcileResult}

/-- A pass that comes to the claim asks the provider about it. -/
def Due (nowMs : Int64) (claim : HostClaimRecord) (db : Database) : Prop :=
  match claim.resource.status.hostId with
  | some hostId => ∃ host, Storage.getHost db hostId = .ok host ∧ host.retry.isDue nowMs = true ∧
      (claim.resource.deletionTimestamp = none → host.resource.status.phase ≠ .failed) ∧
      (claim.resource.deletionTimestamp.isSome → claim.retry.isDue nowMs = true)
  | none => claim.retry.isDue nowMs = true

/-- The pass asked the provider about the claim: to observe its Host, or for a plan. -/
def Attempted (claim : HostClaimRecord) (log : Happened) : Prop :=
  match claim.resource.status.hostId with
  | some hostId => ∃ answer, ⟨.provider (.observe hostId), answer⟩ ∈ log
  | none => ∃ answer,
      ⟨.provider (.selectPlan claim.resource.spec.resources), answer⟩ ::
        claimOpened claim [] <:+: log

/-- The pass returned an error while it handled the claim, and not because it could not read its
    Host. -/
structure FailedFor (claim : HostClaimRecord) (result : Except AppError ReconcileResult)
    (log : Happened) : Prop where
  failed : ∃ error, result = .error error
  handled : ∃ span, currentSpan log = some span ∧ span.claimId = claim.resource.id
  read : ∀ hostId answer, ⟨.getHost hostId, answer⟩ ∉ log.head?

/-! ## Attempts are made in a claim's own turn -/

theorem Attempted.of_suffix (h : Attempted claim log) (hsuffix : log <:+ log') :
    Attempted claim log' := by
  unfold Attempted at *
  cases hbound : claim.resource.status.hostId with
  | some hostId =>
    rw [hbound] at h
    obtain ⟨answer, hmem⟩ := h
    exact ⟨answer, hsuffix.subset hmem⟩
  | none =>
    rw [hbound] at h
    obtain ⟨answer, hinfix⟩ := h
    exact ⟨answer, hinfix.trans hsuffix.isInfix⟩

/-- An attempt shows in an event that is about the claim only. -/
theorem Attempted.event (h : Attempted claim log) :
    ∃ event ∈ log, (∀ other, About other event → ¬ Follows other claim) ∧
      event ∉ snapshotTaken nowMs claims := by
  unfold Attempted at h
  cases hbound : claim.resource.status.hostId with
  | some hostId =>
    rw [hbound] at h
    obtain ⟨answer, hmem⟩ := h
    refine ⟨_, hmem, fun other habout hfollows => ?_, fun hmem => ?_⟩
    · exact hfollows.2 hostId habout hbound
    · rcases List.mem_pair.mp hmem with h | h <;> cases h
  | none =>
    rw [hbound] at h
    obtain ⟨answer, hinfix⟩ := h
    refine ⟨⟨.enterSpan (.reconcileHostClaim claim.resource.id), ()⟩, ?_,
      fun other habout hfollows => ?_,
      fun hmem => ?_⟩
    · exact hinfix.subset (List.mem_cons_of_mem _ List.mem_cons_self)
    · exact hfollows.1 habout
    · rcases List.mem_pair.mp hmem with h | h <;> cases h

/-- An idle turn of a due claim asks the provider about it. -/
theorem IdleTurn.attempted (h : IdleTurn P nowMs claim log db s db' s' log')
    (hdue : Due nowMs claim db) : Attempted claim log' := by
  have hread : ∀ {host : HostRecord}, Opened claim host db →
      host.retry.isDue nowMs = true ∧
        (claim.resource.deletionTimestamp = none → host.resource.status.phase ≠ .failed) := by
    intro host opened
    unfold Due at hdue
    rw [opened.bound] at hdue
    obtain ⟨host', hstored, hdueHost, hnotFailed, -⟩ := hdue
    rw [opened.stored] at hstored
    cases hstored
    exact ⟨hdueHost, hnotFailed⟩
  unfold Attempted
  cases h with
  | releasePostponed _ opened hnotDue => simp [(hread opened).1] at hnotDue
  | skipped hlive opened hskip =>
    rcases hskip with hnotDue | hfailed
    · simp [(hread opened).1] at hnotDue
    · exact absurd hfailed ((hread opened).2 hlive)
  | @observed host resource now _ _ _ _ _ usable _ _ _ _ _ hpersisted =>
    rw [usable.bound]
    refine ⟨.ok (.present resource), ?_⟩
    have hlogged : Logged claim _ log' := hpersisted.logged (.refl claim _)
    exact hlogged.suffix.subset (by simp)
  | postponed _ hunbound hnotDue =>
    unfold Due at hdue
    rw [hunbound] at hdue
    simp [hdue] at hnotDue
  | @assignStale plan _ _ error _ unbound =>
    rw [unbound.unbound]
    exact ⟨.ok (some plan), ⟨[_, _], log, rfl⟩⟩
  | @unsatisfiable now _ unbound =>
    rw [unbound.unbound]
    exact ⟨.ok none, ⟨[_], log, rfl⟩⟩

/-! ## The turn that fails -/

theorem Persisted.span {record : HostClaimRecord} {answer : Except AppError Unit}
    (h : Persisted record db log answer db' log') : currentSpan log' = currentSpan log := by
  cases h <;> rfl

theorem Published.span {updated : HostClaimRecord × HostRecord} {answer : Except AppError Unit}
    (h : Published updated db log answer db' log') : currentSpan log' = currentSpan log := by
  cases h with
  | refused => rfl
  | saved _ hpersisted => exact hpersisted.span

/-- A turn that fails, other than by not finding its Host, has entered the span of its claim. -/
theorem TurnOutcome.entered {error : AppError}
    (h : TurnOutcome P nowMs claim log db s (.error error) db' s' log')
    (hread : ∀ hostId answer, ⟨.getHost hostId, answer⟩ ∉ log'.head?) :
    ∃ span, currentSpan log' = some span ∧ span.claimId = claim.resource.id := by
  generalize hresult : (Except.error error : Except AppError ReconcileResult) = result at h
  cases h with
  | finalizedUnbound | finalizedAbsent | releaseRefused | released | releaseError =>
    exact ⟨_, rfl, rfl⟩
  | releaseUnread | unread => exact absurd rfl (hread _ _)
  | releaseConflict _ _ _ hpublished | conflict _ _ _ hpublished | observed _ _ _ hpublished
  | absent _ _ _ hpublished | observeError _ _ hpublished
  | created _ _ _ _ _ _ hpublished =>
    rw [hpublished.span]
    exact ⟨_, rfl, rfl⟩
  | intentRefused | assigned | assignStale | assignRefused | unsatisfiable => exact ⟨_, rfl, rfl⟩
  | rejected _ _ _ hpersisted | planError _ _ hpersisted =>
    rw [hpersisted.span]
    exact ⟨_, rfl, rfl⟩
  | releasePostponed | skipped | postponed => cases hresult

/-! ## A pass that fails -/

/-- Two listed claims with the same id are the same claim. -/
theorem eq_of_listed (hlisted : Storage.listClaims db = .ok claims) (hclaim : claim ∈ claims)
    (hother : other ∈ claims) (hid : claim.resource.id = other.resource.id) : claim = other := by
  have hstored := (Database.listClaims_ok hlisted).2
  have hclaim := (hstored claim).mp hclaim
  rw [hid, (hstored other).mp hother] at hclaim
  exact (Option.some_inj.mp hclaim).symm

/-- Earlier in a list is before the place where it is cut. -/
theorem sublist_pair_iff {before rest : List HostClaimRecord}
    (hfollows : (before ++ failing :: rest).Pairwise Follows) (hne : other ≠ failing) :
    [other, failing].Sublist (before ++ failing :: rest) ↔ other ∈ before := by
  constructor
  · intro hsublist
    obtain ⟨first, second, hsplit, hfirst, hsecond⟩ := List.sublist_append_iff.mp hsublist
    cases first with
    | cons head tail =>
      obtain ⟨rfl, -⟩ := List.cons.inj hsplit
      exact hfirst.subset List.mem_cons_self
    | nil =>
      rw [List.nil_append] at hsplit
      subst hsplit
      have hrest : [other, failing].Sublist rest := by
        cases hsecond with
        | cons _ hrest => exact hrest
        | cons_cons => exact absurd rfl hne
      have hmem : failing ∈ rest := hrest.subset (List.mem_cons_of_mem _ List.mem_cons_self)
      have hself := (List.pairwise_cons.mp (List.pairwise_append.mp hfollows).2.1).1 failing hmem
      exact absurd rfl hself.1
  · intro hmem
    exact (List.singleton_sublist.mpr hmem).append
      (List.singleton_sublist.mpr List.mem_cons_self)

/-- Where a pass stops, the claim it handled is the one whose turn it was. -/
theorem TurnOutcome.eq_of_failed {error : AppError}
    (h : TurnOutcome P nowMs claim log db s (.error error) db' s' log')
    (hlisted : Storage.listClaims db₀ = .ok claims) (hclaim : claim ∈ claims)
    (hfailing : failing ∈ claims) (hfailed : FailedFor failing (.error error) log') :
    claim = failing := by
  obtain ⟨-, ⟨span, hspan, hid⟩, hread⟩ := hfailed
  obtain ⟨entered, hentered, hown⟩ := h.entered hread
  rw [hspan] at hentered
  cases hentered
  exact eq_of_listed hlisted hclaim hfailing (hown.symm.trans hid)

/-- A claim is asked about in a pass that fails exactly if it comes before the failing one. -/
theorem Visits.attempted_iff {error : AppError}
    (h : Visits P nowMs (visited nowMs claims) (snapshotTaken nowMs claims) db s (.error error) db'
      s' log)
    (hlisted : Storage.listClaims db = .ok claims) (hfailing : failing ∈ claims)
    (hother : other ∈ claims) (hne : other.resource.id ≠ failing.resource.id)
    (hfailed : FailedFor failing (.error error) log) (hdue : Due nowMs other db) :
    Attempted other log ↔ [other, failing].Sublist (visited nowMs claims) := by
  have hfollows : (visited nowMs claims).Pairwise Follows := pairwise_follows hlisted
  have hfollowsOther : ∀ claim ∈ claims, claim ≠ other → Follows claim other := by
    intro claim hclaim hdiffer
    have hstored := (Database.listClaims_ok hlisted).2
    refine follows_of_stored ((hstored claim).mp hclaim) ((hstored other).mp hother) fun hid => ?_
    exact hdiffer (eq_of_listed hlisted hclaim hother hid)
  cases h with
  | @stopped before claim rest db₁ s₁ log₁ _ _ _ _ hsplit hidled hstop =>
    have hmem : ∀ asked ∈ before ++ claim :: rest, asked ∈ claims := by
      rw [← hsplit]
      exact fun asked hasked => mem_visited hasked
    obtain rfl : claim = failing :=
      hstop.eq_of_failed hlisted (hmem claim (List.mem_append_right _ List.mem_cons_self))
        hfailing hfailed
    rw [hsplit] at hfollows ⊢
    rw [sublist_pair_iff hfollows fun heq => hne (by rw [heq])]
    constructor
    · intro hattempted
      obtain ⟨event, hevent, habout, hfresh⟩ := hattempted.event
      obtain ⟨last, rfl, hlast⟩ := hstop.logged
      obtain ⟨events, rfl, hevents⟩ := hidled.logged
      rcases List.mem_append.mp hevent with hevent | hevent
      · exact absurd (hfollowsOther claim hfailing fun heq => hne (by rw [heq]))
          (habout claim (hlast event hevent))
      · rcases List.mem_append.mp hevent with hevent | hevent
        · obtain ⟨asked, hasked, hown⟩ := hevents event hevent
          by_contra hnot
          refine habout asked hown (hfollowsOther asked ?_ ?_)
          · exact hmem asked (List.mem_append_left _ hasked)
          · rintro rfl
            exact hnot hasked
        · exact absurd hevent hfresh
    · intro hbefore
      obtain ⟨db₁, s₁, log₁, db₂, s₂, log₂, hturn, hkept, -, hsuffix⟩ :=
        hidled.turn_of_mem (List.pairwise_append.mp hfollows).1 hbefore
      have hdueThen : Due nowMs other db₁ := by
        unfold Due at *
        cases hbound : other.resource.status.hostId with
        | none => simpa [hbound] using hdue
        | some hostId =>
          rw [hbound] at hdue
          obtain ⟨host, hstored, hrest⟩ := hdue
          refine ⟨host, Database.getHost_eq_ok.mpr ?_, hrest⟩
          rw [hkept.2 hostId hbound]
          exact Database.getHost_eq_ok.mp hstored
      exact (hturn.attempted hdueThen).of_suffix (hsuffix.trans hstop.logged.suffix)

/-- Where the handling of a claim fails, another due claim was handled in the same pass if and
    only if the pass visits it earlier. -/
theorem attempted_iff_visited_earlier (hpass : Pass P world result world' log)
    (hclock : log.getLast? = some ⟨.nowUnixMs, nowMs⟩)
    (hlisted : Storage.listClaims world.database = .ok claims)
    (hfailing : failing ∈ claims) (hother : other ∈ claims)
    (hne : other.resource.id ≠ failing.resource.id) (hfailed : FailedFor failing result log)
    (hdue : Due nowMs other world.database) :
    Attempted other log ↔ [other, failing].Sublist (visited nowMs claims) := by
  have houtcome := hpass.outcome_at hclock
  revert houtcome
  generalize world'.database = db', world'.provider = s'
  intro houtcome
  obtain ⟨error, rfl⟩ := hfailed.failed
  cases houtcome with
  | unlisted herror =>
    rw [hlisted] at herror
    cases herror
  | listed hlisted' hvisits =>
    rw [hlisted] at hlisted'
    cases hlisted'
    exact hvisits.attempted_iff hlisted hfailing hother hne hfailed hdue

/-! ## Passes that fail -/

namespace Script

/-- The plan of this provider is one no Host can have. -/
def useless : Script := { willing with plan := .ok (some ⟨"plan", ⟨0, 1, 1⟩⟩) }

/-- Two claims without a Host. -/
def twoClaims : List (Move Script) :=
  [.createClaim claimId ⟨⟨1, 1, 1⟩⟩ ⟨0⟩, .createClaim ⟨"second"⟩ ⟨⟨1, 1, 1⟩⟩ ⟨1000000000⟩]

/-- A claim with a Ready Host, and a second claim that cannot get one. -/
def oneReady : List (Move Script) :=
  readied ++ [.createClaim ⟨"second"⟩ ⟨⟨1, 1, 1⟩⟩ ⟨1000000000⟩,
    .drift { holding .ready with plan := .ok (some ⟨"plan", ⟨0, 1, 1⟩⟩) }]

end Script

theorem mem_of_op {effect : Effect} (h : effect ∈ log.map (·.op)) :
    ∃ answer, ⟨effect, answer⟩ ∈ log := by
  obtain ⟨⟨op, answer⟩, hmem, rfl⟩ := List.mem_map.mp h
  exact ⟨answer, hmem⟩

/-- What a failing pass over scripted claims shows. -/
theorem failedFor_of_ops {span : Span} {claimId : HostClaimId} {planId : String}
    {resources : HostResources} (hresult : result.isOk = false)
    (hspan : currentSpan log = some span) (hid : span.claimId = claim.resource.id)
    (hhead : (log.map (·.op)).head? = some (.ensureHost claimId planId resources)) :
    FailedFor claim result log := by
  refine ⟨?_, ⟨span, hspan, hid⟩, fun hostId answer hmem => ?_⟩
  · cases result with
    | ok value => cases hresult
    | error error => exact ⟨error, rfl⟩
  · rw [List.head?_map, hmem] at hhead
    cases hhead

/-- The claims of a reachable state can be listed. -/
theorem exists_listed {allowed : Daemon σ → Label → Daemon σ → Prop} {provider : σ}
    {c : Daemon σ} (h : Reachable P allowed provider c) :
    ∃ claims, Storage.listClaims c.world.database = .ok claims ∧
      ∀ id claim, c.world.database.claim? id = some claim → claim ∈ claims := by
  have hinv : c.world.database.Invariant := h.sound.inv
  obtain ⟨claims, hlisted⟩ := Database.listClaims_of_readable hinv.readable
  refine ⟨claims, hlisted, fun id claim hclaim => ?_⟩
  rw [← Database.claim?_id hclaim] at hclaim
  exact ((Database.listClaims_ok hlisted).2 claim).mpr hclaim

/-- A stored record with a property that can be checked. -/
theorem exists_of_any {α : Type} {stored : Option α} (p : α → Bool) (h : stored.any p = true) :
    ∃ record, stored = some record ∧ p record = true := by
  cases stored with
  | none => cases h
  | some record => exact ⟨record, rfl, h⟩

/-- The Ready claim is asked about in a pass that fails later, and so is visited earlier. -/
theorem visited_earlier_of_oneReady :
    ∃ claims first second, Storage.listClaims
        (Script.played .willing Script.oneReady).world.database = .ok claims ∧
      first.resource.id = Script.claimId ∧ second.resource.id = ⟨"second"⟩ ∧
      [first, second].Sublist (visited 0 claims) := by
  obtain ⟨claims, hlisted, hmem⟩ := exists_listed (Script.reachable .willing Script.oneReady)
  obtain ⟨first, hfirst, hready⟩ := exists_of_any (fun claim : HostClaimRecord =>
      claim.resource.status.hostId = some ⟨"h"⟩ ∧ claim.retry.isDue 0 = true)
    (show ((Script.played .willing Script.oneReady).world.database.claim? Script.claimId).any _ =
      true by decide +kernel)
  obtain ⟨second, hsecond, -⟩ := exists_of_any (fun _ : HostClaimRecord => true)
    (show ((Script.played .willing Script.oneReady).world.database.claim? ⟨"second"⟩).any _ =
      true by decide +kernel)
  have hfirstId := Database.claim?_id hfirst
  have hsecondId := Database.claim?_id hsecond
  obtain ⟨hbound, hdue⟩ := of_decide_eq_true hready
  obtain ⟨host, hhost, husable⟩ := exists_of_any (fun host : HostRecord =>
      host.retry.isDue 0 = true ∧ host.resource.status.phase = .ready)
    (show ((Script.played .willing Script.oneReady).world.database.host? ⟨"h"⟩).any _ = true by
      decide +kernel)
  obtain ⟨hhostDue, hphase⟩ := of_decide_eq_true husable
  have hne : first.resource.id ≠ second.resource.id := by
    rw [hfirstId, hsecondId]
    decide
  have hfailed : FailedFor second (Script.ran (Script.played .willing Script.oneReady).world).1
      (Script.ran (Script.played .willing Script.oneReady).world).2.2 :=
    failedFor_of_ops (by decide +kernel)
      (show currentSpan (Script.ran (Script.played .willing Script.oneReady).world).2.2 =
        some (.reconcileHostClaim ⟨"second"⟩) by decide +kernel) hsecondId.symm
      (show _ = some (Effect.ensureHost ⟨"second"⟩ "plan" ⟨0, 1, 1⟩) by decide +kernel)
  have hdueFirst : Due 0 first (Script.played .willing Script.oneReady).world.database := by
    unfold Due
    rw [hbound]
    exact ⟨host, Database.getHost_eq_ok.mpr hhost, hhostDue, fun _ => by rw [hphase]; decide,
      fun _ => hdue⟩
  have hattempted : Attempted first
      (Script.ran (Script.played .willing Script.oneReady).world).2.2 := by
    unfold Attempted
    rw [hbound]
    exact mem_of_op (by decide +kernel)
  exact ⟨claims, first, second, hlisted, hfirstId, hsecondId,
    (attempted_iff_visited_earlier (Script.pass_ran _) (by decide +kernel) hlisted
      (hmem _ _ hsecond) (hmem _ _ hfirst) hne hfailed hdueFirst).mp hattempted⟩

/-- A claim that cannot get its Host ends the pass, and a later one that is due is not attempted. -/
theorem failure_stops_the_pass :
    Reachable Script.model System.anyStep .useless (Script.played .useless Script.twoClaims) ∧
      Pass Script.model (Script.played .useless Script.twoClaims).world
        (Script.ran (Script.played .useless Script.twoClaims).world).1
        (Script.ran (Script.played .useless Script.twoClaims).world).2.1
        (Script.ran (Script.played .useless Script.twoClaims).world).2.2 ∧
      (Script.ran (Script.played .useless Script.twoClaims).world).2.2.getLast? =
        some ⟨.nowUnixMs, 0⟩ ∧
      (Script.ran (Script.played .useless Script.twoClaims).world).1 =
        .error (.invalidArgument "vcpus must be greater than zero") ∧
      ∃ claims first second,
        Storage.listClaims (Script.played .useless Script.twoClaims).world.database = .ok claims ∧
          first ∈ claims ∧ second ∈ claims ∧ first.resource.id = Script.claimId ∧
          second.resource.id = ⟨"second"⟩ ∧
          Due 0 first (Script.played .useless Script.twoClaims).world.database ∧
          Due 0 second (Script.played .useless Script.twoClaims).world.database ∧
          FailedFor first (Script.ran (Script.played .useless Script.twoClaims).world).1
            (Script.ran (Script.played .useless Script.twoClaims).world).2.2 ∧
          ¬Attempted second (Script.ran (Script.played .useless Script.twoClaims).world).2.2 := by
  obtain ⟨claims, hlisted, hmem⟩ := exists_listed (Script.reachable .useless Script.twoClaims)
  obtain ⟨first, hfirst, hfirstUnbound⟩ := exists_of_any (fun claim : HostClaimRecord =>
      claim.resource.status.hostId = none ∧ claim.retry.isDue 0 = true)
    (show ((Script.played .useless Script.twoClaims).world.database.claim? Script.claimId).any _ =
      true by decide +kernel)
  obtain ⟨second, hsecond, hsecondUnbound⟩ := exists_of_any (fun claim : HostClaimRecord =>
      claim.resource.status.hostId = none ∧ claim.retry.isDue 0 = true)
    (show ((Script.played .useless Script.twoClaims).world.database.claim? ⟨"second"⟩).any _ =
      true by decide +kernel)
  have hfirstId := Database.claim?_id hfirst
  have hsecondId := Database.claim?_id hsecond
  obtain ⟨hunbound, hdue⟩ := of_decide_eq_true hfirstUnbound
  obtain ⟨hunbound', hdue'⟩ := of_decide_eq_true hsecondUnbound
  have hfailed : FailedFor first (Script.ran (Script.played .useless Script.twoClaims).world).1
      (Script.ran (Script.played .useless Script.twoClaims).world).2.2 :=
    failedFor_of_ops (by decide +kernel)
      (show currentSpan (Script.ran (Script.played .useless Script.twoClaims).world).2.2 =
        some (.reconcileHostClaim Script.claimId) by decide +kernel) hfirstId.symm
      (show _ = some (Effect.ensureHost Script.claimId "plan" ⟨0, 1, 1⟩) by decide +kernel)
  refine ⟨Script.reachable .useless Script.twoClaims, Script.pass_ran _, by decide +kernel,
    by decide +kernel, claims, first, second, hlisted, hmem _ _ hfirst, hmem _ _ hsecond,
    hfirstId, hsecondId, by unfold Due; rw [hunbound]; exact hdue,
    by unfold Due; rw [hunbound']; exact hdue', hfailed, fun hattempted => ?_⟩
  unfold Attempted at hattempted
  rw [hunbound'] at hattempted
  obtain ⟨answer, hinfix⟩ := hattempted
  have hentered := hinfix.subset (List.mem_cons_of_mem _ List.mem_cons_self)
  rw [hsecondId] at hentered
  revert hentered
  decide +kernel

end ControlPlane
