import ControlPlane.Controller.Scenario
import ControlPlane.Controller.Schedules

/-!
# Retry schedules stay bounded

Every stored deadline is empty, within a minute of the latest clock reading, or `i64::MAX`; the
last one stands for an error that the controller does not retry, and a Host has it only while its
claim is being deleted. This needs a clock more than a minute away from the end of its range:
a minute before it, a deadline of the backoff is `i64::MAX` as well.
-/

namespace ControlPlane

open Interaction

variable {σ : Type} {P : ProviderModel σ} {provider : σ} {c c' : Daemon σ} {label : Label}
  {latest nowMs : Int64}

/-- A step that reads no clock beyond `latest`. -/
def ClockAtMost (latest : Int64) (c : Daemon σ) (_ : Label) (c' : Daemon σ) : Prop :=
  ∀ nowMs, c'.log = ⟨.nowUnixMs, nowMs⟩ :: c.log → nowMs ≤ latest

/-- A deadline and the error kind stored with it, once no clock has read more than `latest`. -/
structure Bounded (latest : Int64) (deadline : Option Int64) (kind : Option String) : Prop where
  soon : ∀ time, deadline = some time →
    time.toInt ≤ latest.toInt + 60000 ∨ time = Int64.maxValue
  permanent : deadline = some Int64.maxValue →
    kind = some "ProviderRejected" ∨ kind = some "ProviderOwnershipConflict"
  due : kind ≠ some "ProviderRejected" → kind ≠ some "ProviderOwnershipConflict" →
    ∀ time, deadline = some time → time.toInt ≤ latest.toInt + 60000

/-- The bounds on the stored deadlines. -/
structure Database.Scheduled (db : Database) (latest : Int64) : Prop where
  claims : ∀ row ∈ db.hostClaims, Bounded latest row.nextReconcileAtUnixMs row.lastErrorKind
  hosts : ∀ row ∈ db.hosts, Bounded latest row.nextReconcileAtUnixMs row.lastErrorKind
  releasing : ∀ row ∈ db.hosts, row.nextReconcileAtUnixMs = some Int64.maxValue →
    ∃ claim ∈ db.hostClaims, claim.id = row.claimId ∧ claim.deletionTimestamp.isSome

/-- Another retry state has a deadline within a minute of the clock reading of the pass. -/
def Rescheduled (log : Happened) (before after : RetryState) : Prop :=
  after = before ∨ after.nextReconcileAtUnixMs = none ∨
    ∃ nowMs, ⟨.nowUnixMs, nowMs⟩ ∈ log ∧
      Bounded nowMs after.nextReconcileAtUnixMs after.lastErrorKind

/-- The computations of deadlines and attempts are exact up to `latest`. -/
structure ExactUpTo (latest : Int64) : Prop where
  shift : ∀ attempt : UInt32,
    ((1 : Int64) <<< Int64.ofNat (min attempt.toNat 6)).toInt = 2 ^ min attempt.toNat 6
  deadline : ∀ nowMs attempt, nowMs ≤ latest → (retryDeadline nowMs attempt).toInt =
    nowMs.toInt + min (1000 * 2 ^ min attempt.toNat 6) 60000
  second : ∀ nowMs, nowMs ≤ latest → (saturatingAdd nowMs 1000).toInt = nowMs.toInt + 1000
  attempt : ∀ attempt, (nextAttempt attempt).toNat = min (attempt.toNat + 1) 4294967295

/-! ## One step -/

theorem bounded_none (latest : Int64) (kind : Option String) : Bounded latest none kind :=
  ⟨nofun, nofun, fun _ _ => nofun⟩

theorem Bounded.of_parked {retry : RetryState} (hparked : retry.Parked)
    (hkind : retry.lastErrorKind = some "ProviderRejected" ∨
      retry.lastErrorKind = some "ProviderOwnershipConflict") :
    Bounded latest retry.nextReconcileAtUnixMs retry.lastErrorKind := by
  unfold RetryState.Parked at hparked
  refine ⟨fun time htime => ?_, fun _ => hkind, fun hnotRejected hnotConflict => ?_⟩
  · rw [hparked] at htime
    exact .inr (Option.some_inj.mp htime).symm
  · rcases hkind with hkind | hkind
    · exact absurd hkind hnotRejected
    · exact absurd hkind hnotConflict

theorem Ahead.bounded {retry : RetryState} (h : Ahead nowMs retry)
    (hlatest : latest.toInt < Int64.maxValue.toInt - 60000) (hnow : nowMs ≤ latest) :
    Bounded latest retry.nextReconcileAtUnixMs retry.lastErrorKind := by
  rw [Int64.le_iff_toInt_le] at hnow
  have hle : ∀ time, retry.nextReconcileAtUnixMs = some time →
      time.toInt ≤ latest.toInt + 60000 := by
    intro time htime
    have hbound := h.le (by omega) htime
    omega
  exact ⟨fun time htime => .inl (hle time htime),
    fun hparked => absurd hparked (h.not_parked (by omega)), fun _ _ => hle⟩

/-- The clock readings of the pass in progress. -/
theorem clock_step (hstep : (daemon P).Step reconcileOnce c label c')
    (hallowed : ClockAtMost latest c label c')
    (hlog : ∀ nowMs, ⟨.nowUnixMs, nowMs⟩ ∈ c.log → nowMs ≤ latest) :
    ∀ nowMs, ⟨.nowUnixMs, nowMs⟩ ∈ c'.log → nowMs ≤ latest := by
  intro nowMs hmem
  cases hstep with
  | interfere => exact hlog nowMs hmem
  | start | finish | crash => cases hmem
  | perform | fault =>
    rcases List.mem_cons.mp hmem with hhead | hmem
    · cases hhead
      exact hallowed nowMs rfl
    · exact hlog nowMs hmem

/-- The claim of a stored Host goes on being deleted. -/
theorem releasing_step (sound : System.Sound (discipline P) (fun _ log _ => Quiet log) c)
    (hstep : (daemon P).Step reconcileOnce c label c') {hostId : HostId} {host : HostRecord}
    (hhost : c'.world.database.host? hostId = some host)
    (h : c.world.database.Releasing host) : c'.world.database.Releasing host := by
  obtain ⟨claim, hclaim, hdeleting⟩ := h
  have hinv' : c'.world.database.Invariant := (sound.step (daemon_obeys P) hstep).inv
  obtain ⟨claim', hclaim', -⟩ := Database.host?_claim hinv'.readable hhost
  have hchange := claim_change sound hstep hclaim
  rw [hclaim'] at hchange
  refine ⟨claim', hclaim', ?_⟩
  rw [deletionTimestamp_of_change hchange hdeleting]
  exact hdeleting

/-- The records of a state in a run whose clock reads at most `latest`. -/
structure Timely (latest : Int64) (c : Daemon σ) : Prop where
  clock : ∀ nowMs, ⟨.nowUnixMs, nowMs⟩ ∈ c.log → nowMs ≤ latest
  claims : ∀ id claim, c.world.database.claim? id = some claim →
    Bounded latest claim.retry.nextReconcileAtUnixMs claim.retry.lastErrorKind
  hosts : ∀ hostId host, c.world.database.host? hostId = some host →
    Bounded latest host.retry.nextReconcileAtUnixMs host.retry.lastErrorKind
  releasing : ∀ hostId host, c.world.database.host? hostId = some host → host.retry.Parked →
    c.world.database.Releasing host

theorem AwaitPoint.host_bounded {log : Happened} {db : Database} {record : HostRecord}
    (h : AwaitPoint log db (.saveHost record))
    (hlatest : latest.toInt < Int64.maxValue.toInt - 60000)
    (hclock : ∀ nowMs, ⟨.nowUnixMs, nowMs⟩ ∈ log → nowMs ≤ latest) :
    Bounded latest record.retry.nextReconcileAtUnixMs record.retry.lastErrorKind ∧
      (record.retry.Parked → db.Releasing record) := by
  obtain ⟨stored, -, -, hschedule⟩ := h.hostSchedule
  obtain ⟨nowMs, hmem, hahead | ⟨hparked, hreleasing, hkind⟩⟩ := hschedule.ahead_or_parked
  · have hnow := hclock nowMs hmem
    refine ⟨hahead.bounded hlatest hnow, fun hparked => absurd hparked (hahead.not_parked ?_)⟩
    rw [Int64.le_iff_toInt_le] at hnow
    omega
  · exact ⟨.of_parked hparked hkind, fun _ => hreleasing⟩

theorem ClaimSchedule.bounded {log : Happened} {claim record : HostClaimRecord}
    (h : ClaimSchedule log claim record)
    (hlatest : latest.toInt < Int64.maxValue.toInt - 60000)
    (hclock : ∀ nowMs, ⟨.nowUnixMs, nowMs⟩ ∈ log → nowMs ≤ latest) :
    record.retry = claim.retry ∨
      Bounded latest record.retry.nextReconcileAtUnixMs record.retry.lastErrorKind := by
  cases h with
  | ahead hmem hahead => exact .inr (hahead.bounded hlatest (hclock _ hmem))
  | same hretry => exact .inl hretry
  | rejected hparked hkind => exact .inr (.of_parked hparked (.inl hkind))

/-- The claim a written status was computed from is the one it is written to. -/
theorem claimSchedule_of_written {before record : HostClaimRecord}
    (hid : before.resource.id = record.resource.id)
    (hdeletion : before.resource.deletionTimestamp = record.resource.deletionTimestamp)
    (hawait : AwaitPoint c.log c.world.database (.saveClaimStatus record))
    {id : HostClaimId} (hbefore : c.world.database.claim? id = some before) :
    ClaimSchedule c.log before record := by
  obtain ⟨nowMs, claim, base, turn, hkept, hschedule⟩ := hawait.claimSchedule
  have hcurrent : c.world.database.claim? record.resource.id = some before := by
    rw [← hid, Database.claim?_id hbefore]
    exact hbefore
  rw [turn.stored_eq hkept hcurrent hdeletion]
  exact hschedule

/-- A step keeps the bounds. -/
theorem Timely.step (h : Timely latest c)
    (sound : System.Sound (discipline P) (fun _ log _ => Quiet log) c)
    (hlatest : latest.toInt < Int64.maxValue.toInt - 60000)
    (hstep : (daemon P).Step reconcileOnce c label c')
    (hallowed : ClockAtMost latest c label c') : Timely latest c' := by
  refine ⟨clock_step hstep hallowed h.clock, fun id after hafter => ?_,
    fun hostId after hafter => ?_,
    fun hostId after hafter hparked => ?_⟩
  · cases hbefore : c.world.database.claim? id with
    | none =>
      obtain ⟨spec, now, rfl⟩ := claim_appears sound hstep hbefore hafter
      exact bounded_none _ _
    | some before =>
      have hchange := claim_change sound hstep hbefore
      rw [hafter] at hchange
      cases hchange with
      | kept => exact h.claims id _ hbefore
      | requested | assigned => exact bounded_none _ _
      | written _ hid hdeletion hawait =>
        have hschedule := claimSchedule_of_written hid hdeletion hawait hbefore
        rcases hschedule.bounded hlatest h.clock with hretry | hbounded
        · have hbefore := h.claims id before hbefore
          rw [← hretry] at hbefore
          exact hbefore
        · exact hbounded
  · have hchange := host_change sound hstep hostId
    rw [hafter] at hchange
    generalize hbefore : c.world.database.host? hostId = before at hchange
    cases hchange with
    | kept => exact h.hosts hostId after hbefore
    | inserted => exact bounded_none _ _
    | saved _ _ _ hawait => exact (hawait.host_bounded hlatest h.clock).1
  · apply releasing_step sound hstep hafter
    have hchange := host_change sound hstep hostId
    rw [hafter] at hchange
    generalize hbefore : c.world.database.host? hostId = before at hchange
    cases hchange with
    | kept => exact h.releasing hostId after hbefore hparked
    | inserted => cases hparked
    | @saved before record _ _ hid hawait =>
      obtain ⟨stored, hstored, hkept, -⟩ := hawait.hostSchedule
      rw [← hid, hbefore] at hstored
      cases hstored
      rw [hkept] at hparked ⊢
      exact (hawait.host_bounded hlatest h.clock).2 hparked

/-! ## Runs -/

theorem timely_of_reachable (hlatest : latest.toInt < Int64.maxValue.toInt - 60000)
    (h : Reachable P (ClockAtMost latest) provider c) : Timely latest c := by
  refine h.invariant (Timely latest) ⟨nofun, by simp [Config.idle, World.initial],
    by simp [Config.idle, World.initial], by simp [Config.idle, World.initial]⟩ ?_
  intro first label second hfirst hstep hallowed htimely
  exact htimely.step (Reachable.sound hfirst) hlatest hstep hallowed

/-- The bounds, seen from the rows. -/
theorem Timely.scheduled (h : Timely latest c) (readable : c.world.database.Readable) :
    c.world.database.Scheduled latest := by
  refine ⟨fun row hmem => ?_, fun row hmem => ?_, fun row hmem hparked => ?_⟩
  · obtain ⟨claim, hclaim, hdecode⟩ := readable.claim_of_row hmem
    have hcolumns := claimColumns hdecode
    have hbounded := h.claims _ claim hclaim
    rw [hcolumns.nextReconcileAt, hcolumns.lastErrorKind] at hbounded
    exact hbounded
  · obtain ⟨host, hhost, hdecode⟩ := readable.host_of_row hmem
    have hcolumns := hostColumns hdecode
    have hbounded := h.hosts _ host hhost
    rw [hcolumns.nextReconcileAt, hcolumns.lastErrorKind] at hbounded
    exact hbounded
  · obtain ⟨host, hhost, hdecode⟩ := readable.host_of_row hmem
    have hcolumns := hostColumns hdecode
    obtain ⟨claim, hclaim, hdeleting⟩ :=
      h.releasing _ host hhost (hcolumns.nextReconcileAt.trans hparked)
    obtain ⟨claimRow, hclaimMem, hid, hclaimDecode⟩ := Database.claim?_eq_some.mp hclaim
    refine ⟨claimRow, hclaimMem, hid.trans hcolumns.claimId, ?_⟩
    have hdeletion := (claimColumns hclaimDecode).deletionTimestamp
    rw [hdeletion] at hdeleting
    exact hdeleting

theorem exactUpTo (hlatest : latest.toInt < Int64.maxValue.toInt - 60000) : ExactUpTo latest := by
  refine ⟨fun attempt => ?_, fun nowMs attempt hnow => ?_, fun nowMs hnow => ?_, toNat_nextAttempt⟩
  · have hle : min attempt.toNat 6 ≤ 6 := Nat.min_le_right _ _
    revert hle
    generalize min attempt.toNat 6 = exponent
    intro hle
    interval_cases exponent <;> decide
  · rw [Int64.le_iff_toInt_le] at hnow
    have hbounds := retryDelay_bounds attempt
    rw [retryDeadline_eq, toInt_saturatingAdd_of_le (by omega) hbounds.2 (by omega),
      toInt_retryDelay]
  · rw [Int64.le_iff_toInt_le] at hnow
    rw [toInt_saturatingAdd_of_le (by decide) (by decide) (by omega)]
    rfl

/-- In every run whose clock stays more than a minute away from its end, every stored deadline is
    empty, at most a minute after the latest reading, or `i64::MAX` for an error that is not
    retried; a Host has the latter only while its claim is being deleted; every step that gives a
    record another retry state sets it within a minute of the clock reading of its pass; and no
    computation of a deadline or an attempt overflows. -/
theorem deadlines_stay_bounded (hlatest : latest.toInt < Int64.maxValue.toInt - 60000)
    (h : Reachable P (ClockAtMost latest) provider c) :
    c.world.database.Scheduled latest ∧
      (∀ label c', (daemon P).Step reconcileOnce c label c' →
        (∀ id before after, c.world.database.claim? id = some before →
          c'.world.database.claim? id = some after → Rescheduled c.log before.retry after.retry) ∧
        ∀ hostId before after, c.world.database.host? hostId = some before →
          c'.world.database.host? hostId = some after →
          Rescheduled c.log before.retry after.retry) ∧
      ExactUpTo latest := by
  have htimely := timely_of_reachable hlatest h
  have hinv : c.world.database.Invariant := h.sound.inv
  have hown : ∀ nowMs, ⟨.nowUnixMs, nowMs⟩ ∈ c.log →
      nowMs.toInt < Int64.maxValue.toInt - 60000 := by
    intro nowMs hmem
    have hle := htimely.clock nowMs hmem
    rw [Int64.le_iff_toInt_le] at hle
    omega
  refine ⟨htimely.scheduled hinv.readable, fun label c' hstep => ⟨?_, ?_⟩, exactUpTo hlatest⟩
  · intro id before after hbefore hafter
    have hchange := claim_change h.sound hstep hbefore
    rw [hafter] at hchange
    cases hchange with
    | kept => exact .inl rfl
    | requested | assigned => exact .inr (.inl rfl)
    | written _ hid hdeletion hawait =>
      cases claimSchedule_of_written hid hdeletion hawait hbefore with
      | ahead hmem hahead =>
        exact .inr (.inr ⟨_, hmem, hahead.bounded (hown _ hmem) (Int64.le_refl _)⟩)
      | same hretry => exact .inl hretry
      | rejected hparked hkind =>
        obtain ⟨nowMs, claim, base, turn, hsuffix, -⟩ := hawait.saveClaimStatus_turn
        exact .inr (.inr ⟨nowMs, turn.clock hsuffix, .of_parked hparked (.inl hkind)⟩)
  · intro hostId before after hbefore hafter
    have hchange := host_change h.sound hstep hostId
    rw [hbefore, hafter] at hchange
    cases hchange with
    | kept => exact .inl rfl
    | saved _ _ _ hawait =>
      obtain ⟨stored, -, -, hschedule⟩ := hawait.hostSchedule
      obtain ⟨nowMs, hmem, hahead | ⟨hparked, -, hkind⟩⟩ := hschedule.ahead_or_parked
      · exact .inr (.inr ⟨nowMs, hmem, hahead.bounded (hown _ hmem) (Int64.le_refl _)⟩)
      · exact .inr (.inr ⟨nowMs, hmem, .of_parked hparked hkind⟩)

/-! ## Runs with a failing provider -/

namespace Script

/-- A provider whose resources cannot be observed for now. -/
def unreachable : Script := { willing with observation := .error (.transient "unreachable") }

/-- A claim gets a Host, which then cannot be observed, at these times. -/
def failing (clocks : List Clock) : List (Move Script) :=
  .createClaim claimId ⟨⟨1, 1, 1⟩⟩ ⟨0⟩ ::
    (Move.pass 5 .epoch ++ .drift unreachable :: clocks.flatMap (Move.pass 8))

/-- Six times, the last a minute before the end of the clock's range. -/
def untilTheEnd : List Clock :=
  [.epoch, ⟨100000, ⟨0⟩, by decide⟩, ⟨200000, ⟨0⟩, by decide⟩,
    ⟨300000, ⟨0⟩, by decide⟩, ⟨400000, ⟨0⟩, by decide⟩,
    ⟨9223372036854715807, ⟨0⟩, by decide⟩]

/-- No clock of a move is beyond `latest`. -/
def readsAtMost (latest : Int64) : Move Script → Bool
  | .perform clock => clock.nowMs ≤ latest
  | _ => true

theorem clockAtMost_play {c : Daemon Script} {move : Move Script}
    (hreads : readsAtMost latest move = true) :
    ClockAtMost latest c move.label (c.play provide move) := by
  obtain ⟨world, task, log⟩ := c
  intro nowMs hlog
  cases move with
  | createClaim | markClaimDeleting | drift => exact absurd hlog.symm (List.cons_ne_self _ _)
  | crash => cases hlog
  | start =>
    cases task with
    | none => cases hlog
    | some => exact absurd hlog.symm (List.cons_ne_self _ _)
  | finish =>
    rcases task with _ | ⟨value⟩ | ⟨effect, next⟩
    · exact absurd hlog.symm (List.cons_ne_self _ _)
    · cases hlog
    · exact absurd hlog.symm (List.cons_ne_self _ _)
  | perform clock =>
    rcases task with _ | ⟨value⟩ | ⟨effect, next⟩
    · exact absurd hlog.symm (List.cons_ne_self _ _)
    · exact absurd hlog.symm (List.cons_ne_self _ _)
    · obtain ⟨hevent, -⟩ := List.cons.inj hlog
      cases effect <;> cases hevent
      exact of_decide_eq_true hreads

theorem reachable_atMost {script : Script} {moves : List (Move Script)}
    (hclocks : Daemon.Along provide (fun _ => readsAtMost latest) (.idle (World.initial script))
      moves = true) :
    Reachable model (ClockAtMost latest) script (played script moves) :=
  reachable_played (fun _ => readsAtMost latest) (fun _ _ => clockAtMost_play) hclocks

end Script

/-- The deadlines after one failure. -/
theorem deadlines_bounded_of_failing :
    (Script.played .willing (Script.failing [.epoch])).world.database.Scheduled 0 ∧
      ∃ row ∈ (Script.played .willing (Script.failing [.epoch])).world.database.hosts,
        row.nextReconcileAtUnixMs = some 2000 :=
  ⟨(deadlines_stay_bounded (by decide) (Script.reachable_atMost (by decide +kernel))).1,
    by decide +kernel⟩

/-- A minute before the end of the clock's range, a deadline of the backoff is `i64::MAX`. -/
theorem deadlines_may_reach_the_end :
    (9223372036854715807 : Int64).toInt = Int64.maxValue.toInt - 60000 ∧
      Reachable Script.model (ClockAtMost 9223372036854715807) .willing
        (Script.played .willing (Script.failing Script.untilTheEnd)) ∧
      (∃ row ∈ (Script.played .willing (Script.failing Script.untilTheEnd)).world.database.hosts,
        row.nextReconcileAtUnixMs = some Int64.maxValue ∧
          row.lastErrorKind = some "ProviderUnavailable") ∧
      ¬(Script.played .willing (Script.failing Script.untilTheEnd)).world.database.Scheduled
        9223372036854715807 := by
  have hrow : ∃ row ∈
      (Script.played .willing (Script.failing Script.untilTheEnd)).world.database.hosts,
      row.nextReconcileAtUnixMs = some Int64.maxValue ∧
        row.lastErrorKind = some "ProviderUnavailable" := by
    decide +kernel
  refine ⟨by decide, Script.reachable_atMost (by decide +kernel), hrow, fun hscheduled => ?_⟩
  obtain ⟨row, hmem, hend, hkind⟩ := hrow
  rcases (hscheduled.hosts row hmem).permanent hend with hpermanent | hpermanent
  · rw [hkind] at hpermanent
    exact absurd hpermanent (by decide)
  · rw [hkind] at hpermanent
    exact absurd hpermanent (by decide)

end ControlPlane
