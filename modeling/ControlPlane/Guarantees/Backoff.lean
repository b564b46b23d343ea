import ControlPlane.Controller.Failures
import ControlPlane.Controller.Scenario
import ControlPlane.Deadlines

/-!
# The backoff and consecutive failures

How often a call about a Host has failed in a row shows in the stored attempt for `observe` only.
Before `create` and before `delete` the Host is saved with an empty retry state, so that every
failure of these counts as the first.
-/

namespace ControlPlane

open Interaction

variable {σ : Type} {P : ProviderModel σ} {provider : σ} {call : Retried} {hostId : HostId}
  {c c' start : Daemon σ} {label : Label} {count : Nat}

/-- A step at which the provider answers about the Host with failures of `call` only, apart from
    what `observe` answers in between; and no failure is lost before the Host is saved with it. -/
structure Consecutive (call : Retried) (hostId : HostId) (c : Daemon σ) (label : Label)
    (c' : Daemon σ) : Prop where
  answers : ∀ event, c'.log = event :: c.log → askedAbout event = some hostId →
    call.Failure hostId event ∨ call.Between hostId c.world.database event
  kept : call.Unsaved hostId c.log → label ≠ .crash ∧ label ≠ .fault

/-- A step at which `call` fails. -/
def Fails (call : Retried) (hostId : HostId) (c : Daemon σ) (_ : Label) (c' : Daemon σ) : Prop :=
  ∃ event, c'.log = event :: c.log ∧ call.Failure hostId event

/-- `call` fails so many times in a row. -/
abbrev FailsTimes (P : ProviderModel σ) (call : Retried) (hostId : HostId) (start : Daemon σ)
    (count : Nat) (c : Daemon σ) : Prop :=
  System.Counted (daemon P) reconcileOnce (Consecutive call hostId) (Fails call hostId) start
    count c

/-- The Host is stored with an empty retry state, and the pass in progress has not asked the
    provider about it. -/
structure Rests (hostId : HostId) (c : Daemon σ) : Prop where
  stored : ∃ host, c.world.database.host? hostId = some host ∧ host.retry = RetryState.default
  unasked : ∀ event ∈ c.log, askedAbout event ≠ some hostId

/-- The attempts grow with the failures. -/
def Retried.Grows (count : Nat) : Retried → Prop
  | .observe => count < 2 ^ 32
  | .create => count = 1
  | .delete => count = 1

/-! ## What was saved -/

theorem stored_of_saved {world world' : World σ} {record : HostRecord}
    (hinv : world.database.Invariant) (h : answered P world (.saveHost record) (.ok ()) world') :
    ∃ stored, world'.database.host? record.resource.id = some stored ∧
      stored.retry = record.retry := by
  rcases answered_saveHost h with ⟨-, hsave⟩ | ⟨error, herror, -⟩
  · obtain ⟨stored, -, -, -, hhost⟩ := Storage.saveHost_ok hinv.readable hsave
    refine ⟨stored.withStatus record, ?_, rfl⟩
    rw [hhost, Function.update_self]
  · cases herror

/-- A Host that has just been saved is stored with that retry state, and was saved at an await
    point. -/
theorem saved_of_log (h : Reachable P System.anyStep provider c) {record : HostRecord}
    {older : Happened} (hlog : c.log = ⟨.saveHost record, .ok ()⟩ :: older) :
    (∃ db, AwaitPoint older db (.saveHost record)) ∧
      ∃ stored, c.world.database.host? record.resource.id = some stored ∧
        stored.retry = record.retry := by
  refine h.invariant
    (fun c => ∀ record older, c.log = ⟨.saveHost record, .ok ()⟩ :: older →
      (∃ db, AwaitPoint older db (.saveHost record)) ∧
        ∃ stored, c.world.database.host? record.resource.id = some stored ∧
          stored.retry = record.retry) (fun _ _ hlog => by cases hlog) ?_ record older hlog
  intro first label second hfirst hstep _ ih record older hlog
  have sound := Reachable.sound hfirst
  cases hstep with
  | interfere hother =>
    have hrely := ((daemon_obeys P).interfere _ _ sound.inv hother).2
    obtain ⟨hawait, stored, hstored, hretry⟩ := ih record older hlog
    refine ⟨hawait, stored, ?_, hretry⟩
    rw [hrely.hosts]
    exact hstored
  | start | finish | crash => cases hlog
  | perform hexec =>
    cases hlog
    exact ⟨⟨_, sound.issue rfl⟩, stored_of_saved (P := P) sound.inv (.inl hexec)⟩
  | fault hfault =>
    cases hlog
    exact ⟨⟨_, sound.issue rfl⟩, stored_of_saved (P := P) sound.inv (.inr hfault)⟩

/-! ## Failures of `observe` -/

/-- What is stored after so many failures of `observe`; one that is unsaved is not in the attempt
    yet. -/
structure Growing (hostId : HostId) (count : Nat) (c : Daemon σ) : Prop where
  asked : ∀ event ∈ c.log, askedAbout event = some hostId → Retried.observe.Failure hostId event
  attempt : ∃ stored, c.world.database.host? hostId = some stored ∧
    (¬ Retried.observe.Unsaved hostId c.log → stored.retry.attempt.toNat = min count 4294967295) ∧
    (Retried.observe.Unsaved hostId c.log →
      ∃ saved, count = saved + 1 ∧ stored.retry.attempt.toNat = min saved 4294967295)

section Growing

variable {effect : Effect} {answer : Answer effect} {world' : World σ}
  {task : Option (Program Effect Answer (Except AppError ReconcileResult))}

/-- Without new events and with what is stored untouched. -/
theorem Growing.same (h : Growing hostId count c) (hlog : c'.log = c.log)
    (hhost : c'.world.database.host? = c.world.database.host?) : Growing hostId count c' := by
  obtain ⟨hasked, hattempt⟩ := h
  rw [← hlog] at hasked hattempt
  rw [← hhost] at hattempt
  exact ⟨hasked, hattempt⟩

/-- The events of a pass that has saved every failure may be forgotten. -/
theorem Growing.forget (h : Growing hostId count c)
    (hsaved : ¬ Retried.observe.Unsaved hostId c.log) (hlog : c'.log = [])
    (hhost : c'.world.database.host? = c.world.database.host?) : Growing hostId count c' := by
  obtain ⟨-, stored, hstored, hcount, -⟩ := h
  refine ⟨fun event hmem => ?_, stored, ?_, fun _ => hcount hsaved, fun hunsaved => ?_⟩
  · rw [hlog] at hmem
    cases hmem
  · rw [hhost]
    exact hstored
  · rw [hlog] at hunsaved
    exact absurd hunsaved not_unsaved_nil

/-- The events about the Host after an answer. -/
theorem Growing.asked_cons (h : Growing hostId count c) {event : Event Effect Answer}
    (hanswers : askedAbout event = some hostId → Retried.observe.Failure hostId event) :
    ∀ other ∈ event :: c.log, askedAbout other = some hostId →
      Retried.observe.Failure hostId other := by
  intro other hmem
  rcases List.mem_cons.mp hmem with rfl | hmem
  · exact hanswers
  · exact h.asked other hmem

/-- The save of a failure counts it. -/
theorem Growing.saved (h : Growing hostId count c) (hinv : c.world.database.Invariant)
    {record : HostRecord} {answer : Answer (.saveHost record)}
    (hunsaved : Retried.observe.Unsaved hostId c.log)
    (hawait : AwaitPoint c.log c.world.database (.saveHost record))
    (hexec : World.exec P c.world (.saveHost record) answer world') :
    Growing hostId count ⟨world', task, ⟨.saveHost record, answer⟩ :: c.log⟩ := by
  obtain ⟨stored, hstored, -, hpending⟩ := h.attempt
  obtain ⟨saved, rfl, hattempt⟩ := hpending hunsaved
  obtain ⟨rfl, stored', nowMs, hstored', -, hkept, hnext, -⟩ := retries_of_unsaved hawait hunsaved
  rw [hstored] at hstored'
  cases hstored'
  obtain ⟨db', hsave⟩ := Storage.saveHost_succeeds_of_kept hstored hkept
  obtain ⟨-, rfl⟩ := hexec
  obtain ⟨current, hcurrent, -, -, hhost⟩ := Storage.saveHost_ok hinv.readable hsave
  have hrun : (Storage.run (Storage.saveHost record) c.world.database).2 = db' := by
    rw [Storage.run, hsave]
  refine ⟨h.asked_cons (fun hasked => by cases hasked), stored.withStatus record, ?_,
    fun _ => ?_, fun hunsaved => ?_⟩
  · rw [hstored] at hcurrent
    cases hcurrent
    dsimp only
    rw [hrun, hhost, Function.update_self]
  · change record.retry.attempt.toNat = _
    rw [hnext, toNat_nextAttempt]
    change min (stored.retry.attempt.toNat + 1) _ = _
    omega
  · rcases unsaved_cons.mp hunsaved with hfailure | ⟨⟨now, heq⟩, -⟩
    · cases askedAbout_of_failure hfailure
    · cases heq

/-- An answer that fails. -/
theorem Growing.failed (h : Growing hostId count c)
    (hsaved : ¬ Retried.observe.Unsaved hostId c.log)
    (hfailure : Retried.observe.Failure hostId ⟨effect, answer⟩)
    (hanswered : answered P c.world effect answer world') :
    Growing hostId (count + 1) ⟨world', task, ⟨effect, answer⟩ :: c.log⟩ := by
  obtain ⟨stored, hstored, hcount, -⟩ := h.attempt
  obtain ⟨message, hevent⟩ := observe_failure hfailure
  cases hevent
  refine ⟨h.asked_cons fun _ => hfailure, stored, ?_, fun hnot => ?_, fun _ => ?_⟩
  · rw [answered_reads rfl hanswered]
    exact hstored
  · exact absurd (.answered hfailure) hnot
  · exact ⟨count, rfl, hcount hsaved⟩

/-- Where every failure is saved, nothing is done to the Host before `observe` fails again. -/
theorem Growing.untouched (h : Growing hostId count c)
    (sound : System.Sound (discipline P) (fun _ log _ => Quiet log) c)
    (hstep : (daemon P).Step reconcileOnce c label c')
    (hsaved : ¬ Retried.observe.Unsaved hostId c.log) :
    c'.world.database.host? hostId = c.world.database.host? hostId := by
  obtain ⟨stored, hstored, -⟩ := h.attempt
  have hinv : c.world.database.Invariant := sound.inv
  have hchange := host_change sound hstep hostId
  rw [hstored] at hchange ⊢
  generalize c'.world.database.host? hostId = after at hchange
  cases hchange with
  | kept => rfl
  | saved _ _ hid hawait =>
    subst hid
    exact absurd (unsaved_of_asked hawait h.asked) hsaved
  | removed hpending =>
    obtain ⟨claim, hclaim, hbound⟩ := Database.host?_claim hinv.readable hstored
    obtain ⟨claim', hclaim', -, hcases⟩ := (sound.issue hpending).finalizeClaim_cases
    rw [hclaim] at hclaim'
    cases hclaim'
    rcases hcases with hunbound | ⟨hostId', hbound', hmem⟩
    · rw [hunbound] at hbound
      cases hbound
    · rw [hbound] at hbound'
      cases hbound'
      cases h.asked _ (List.mem_of_mem_head? hmem) rfl

/-- An answer about something else. -/
theorem Growing.other (h : Growing hostId count c)
    (sound : System.Sound (discipline P) (fun _ log _ => Quiet log) c)
    (hstep : (daemon P).Step reconcileOnce c label c')
    (hsaved : ¬ Retried.observe.Unsaved hostId c.log) {event : Event Effect Answer}
    (hlog : c'.log = event :: c.log) (hnot : ¬ Retried.observe.Failure hostId event)
    (hanswers : askedAbout event = some hostId → Retried.observe.Failure hostId event) :
    Growing hostId count c' := by
  have hsame := h.untouched sound hstep hsaved
  obtain ⟨stored, hstored, hcount, -⟩ := h.attempt
  refine ⟨?_, stored, hsame.trans hstored, fun _ => hcount hsaved, fun hunsaved => ?_⟩
  · rw [hlog]
    exact h.asked_cons hanswers
  · rw [hlog] at hunsaved
    rcases unsaved_cons.mp hunsaved with hfailure | ⟨-, failed, older, heq, hfailure⟩
    · exact absurd hfailure hnot
    · rw [heq] at hsaved
      exact absurd (.answered hfailure) hsaved

/-- The clock reading between a failure and its save. -/
theorem Growing.stamped (h : Growing hostId count c) {now : Timestamp}
    {failed : Event Effect Answer}
    {older : Happened} (hlog : c.log = failed :: older)
    (hfailure : Retried.observe.Failure hostId failed)
    (hanswered : answered P c.world .nowTimestamp now world') :
    Growing hostId count ⟨world', task, ⟨.nowTimestamp, now⟩ :: c.log⟩ := by
  obtain ⟨stored, hstored, -, hpending⟩ := h.attempt
  have hunsaved : Retried.observe.Unsaved hostId (⟨.nowTimestamp, now⟩ :: c.log) := by
    rw [hlog]
    exact .stamped hfailure
  refine ⟨h.asked_cons (fun hasked => by cases hasked), stored, ?_,
    fun hnot => absurd hunsaved hnot, fun _ => hpending ?_⟩
  · rw [answered_reads rfl hanswered]
    exact hstored
  · rw [hlog]
    exact .answered hfailure

/-- An answer in a run in which `observe` fails again and again. -/
theorem Growing.event (h : Growing hostId count c)
    (sound : System.Sound (discipline P) (fun _ log _ => Quiet log) c)
    (horderly : c.Orderly Owed Attended) (hstep : (daemon P).Step reconcileOnce c label c')
    (hallowed : Consecutive .observe hostId c label c') (hpending : c.pending = some effect)
    (hlog : c'.log = ⟨effect, answer⟩ :: c.log)
    (hanswered : answered P c.world effect answer c'.world)
    (hexec : label = .fault ∨ World.exec P c.world effect answer c'.world) :
    (Fails .observe hostId c label c' → Growing hostId (count + 1) c') ∧
      (¬ Fails .observe hostId c label c' → Growing hostId count c') := by
  have hfails : Fails .observe hostId c label c' ↔
      Retried.observe.Failure hostId ⟨effect, answer⟩ := by
    constructor
    · rintro ⟨event, hlog', hfailure⟩
      rw [hlog] at hlog'
      rw [(List.cons.inj hlog').1]
      exact hfailure
    · exact fun hfailure => ⟨_, hlog, hfailure⟩
  rw [hfails]
  have hanswers : askedAbout ⟨effect, answer⟩ = some hostId →
      Retried.observe.Failure hostId ⟨effect, answer⟩ := by
    intro hasked
    rcases hallowed.answers _ hlog hasked with hfailure | hbetween
    · exact hfailure
    · cases hbetween
  by_cases hsaved : Retried.observe.Unsaved hostId c.log
  · have hdone := hexec.resolve_left (hallowed.kept hsaved).2
    obtain ⟨world', task, log'⟩ := c'
    cases hlog
    rcases next_of_unsaved hsaved (horderly.allows hpending) with
      ⟨rfl, failed, older, hfailed, hfailure⟩ | ⟨record, rfl⟩
    · exact ⟨nofun, fun _ => h.stamped hfailed hfailure hanswered⟩
    · exact ⟨nofun, fun _ => h.saved sound.inv hsaved (sound.issue hpending) hdone⟩
  · refine ⟨fun hfailure => ?_, fun hnot => h.other sound hstep hsaved hlog hnot hanswers⟩
    obtain ⟨world', task, log'⟩ := c'
    cases hlog
    exact h.failed hsaved hfailure hanswered

end Growing

/-- A step of a run in which `observe` fails again and again. -/
theorem Growing.step (h : Growing hostId count c) (hreach : Reachable P System.anyStep provider c)
    (hstep : (daemon P).Step reconcileOnce c label c')
    (hallowed : Consecutive .observe hostId c label c') :
    (Fails .observe hostId c label c' → Growing hostId (count + 1) c') ∧
      (¬ Fails .observe hostId c label c' → Growing hostId count c') := by
  have sound := hreach.sound
  have horderly := System.Reach.orderly reconcileOnce_orderly hreach
  have hsilent : ∀ {log : Happened}, c'.log = log → (∀ event, log ≠ event :: c.log) →
      Growing hostId count c' →
      (Fails .observe hostId c label c' → Growing hostId (count + 1) c') ∧
        (¬ Fails .observe hostId c label c' → Growing hostId count c') := by
    intro log hlog hne hgrowing
    refine ⟨fun hfails => ?_, fun _ => hgrowing⟩
    obtain ⟨event, hlog', -⟩ := hfails
    exact absurd (hlog.symm.trans hlog') (hne event)
  have hnil : ∀ event, [] ≠ event :: c.log := fun event heq => List.cons_ne_nil _ _ heq.symm
  cases hstep with
  | interfere hother =>
    refine hsilent rfl (fun event heq => List.cons_ne_self _ _ heq.symm) (h.same rfl ?_)
    exact ((daemon_obeys P).interfere _ _ sound.inv hother).2.hosts
  | start =>
    refine hsilent rfl hnil (h.forget ?_ rfl rfl)
    rw [System.Reach.log_nil hreach rfl]
    exact not_unsaved_nil
  | finish =>
    refine hsilent rfl hnil (h.forget ?_ rfl rfl)
    exact not_unsaved_of_settled (horderly _ rfl).1
  | crash hcrash =>
    obtain ⟨provider, -, rfl⟩ := hcrash
    refine hsilent rfl hnil (h.forget (fun hunsaved => ?_) rfl rfl)
    exact (hallowed.kept hunsaved).1 rfl
  | perform hexec =>
    exact h.event sound horderly (.perform hexec) hallowed rfl rfl (.inl hexec) (.inr hexec)
  | fault hfault =>
    exact h.event sound horderly (.fault hfault) hallowed rfl rfl (.inr hfault) (.inl rfl)

theorem growing_of_failsTimes (hreach : Reachable P System.anyStep provider start)
    (hrests : Rests hostId start) (h : FailsTimes P .observe hostId start count c) :
    Growing hostId count c := by
  induction h with
  | refl =>
    obtain ⟨⟨host, hhost, hretry⟩, hunasked⟩ := hrests
    refine ⟨fun event hmem hasked => absurd hasked (hunasked event hmem), host, hhost,
      fun _ => by rw [hretry]; rfl, fun hunsaved => ?_⟩
    obtain ⟨event, hmem, hfailure⟩ := hunsaved.failure
    exact absurd (askedAbout_of_failure hfailure) (hunasked event hmem)
  | other hrun hstep hok hnot ih =>
    exact (ih.step (hreach.any.trans hrun.reach.any) hstep hok).2 hnot
  | one hrun hstep hok hfails ih =>
    exact (ih.step (hreach.any.trans hrun.reach.any) hstep hok).1 hfails

/-! ## Exactly when the attempts grow -/

/-- A Host that has just been saved with a failure: the attempt that is stored, and its deadline. -/
theorem retry_of_written (h : Reachable P System.anyStep provider c) {nowMs : Int64}
    (hwritten : call.Written hostId c.log) (hclock : c.log.getLast? = some ⟨.nowUnixMs, nowMs⟩) :
    ∃ host, c.world.database.host? hostId = some host ∧
      host.retry.nextReconcileAtUnixMs = some (retryDeadline nowMs host.retry.attempt) ∧
      ∃ stored, host.retry.attempt = nextAttempt (call.before stored) := by
  obtain ⟨record, older, hlog, hunsaved⟩ := hwritten
  obtain ⟨⟨db, hawait⟩, host, hhost, hretry⟩ := saved_of_log h hlog
  obtain ⟨rfl, stored, nowMs', -, hclock', -, hattempt, hdeadline⟩ :=
    retries_of_unsaved hawait hunsaved
  have hsame : nowMs' = nowMs := by
    rw [hlog, List.getLast?_cons, hclock'] at hclock
    cases hclock
    rfl
  subst hsame
  refine ⟨host, hhost, ?_, stored, ?_⟩
  · rw [hretry, hdeadline, hattempt]
  · rw [hretry, hattempt]

/-- After the failures have been written, the stored attempt is their number, and the deadline the
    one for that attempt, exactly if they were failures of `observe` that can still be counted, or
    there was only one. -/
theorem attempts_grow_iff {nowMs : Int64} (hreach : Reachable P System.anyStep provider start)
    (hrests : Rests hostId start) (hfails : FailsTimes P call hostId start count c)
    (hwritten : call.Written hostId c.log) (hclock : c.log.getLast? = some ⟨.nowUnixMs, nowMs⟩) :
    (∃ host, c.world.database.host? hostId = some host ∧ host.retry.attempt.toNat = count ∧
      host.retry.nextReconcileAtUnixMs = some (retryDeadline nowMs (UInt32.ofNat count))) ↔
      call.Grows count := by
  have hc : Reachable P System.anyStep provider c := hreach.trans hfails.reach.any
  obtain ⟨host, hhost, hdeadline, stored, hattempt⟩ := retry_of_written hc hwritten hclock
  have hcount : (∃ host, c.world.database.host? hostId = some host ∧
      host.retry.attempt.toNat = count ∧
      host.retry.nextReconcileAtUnixMs = some (retryDeadline nowMs (UInt32.ofNat count))) ↔
      host.retry.attempt.toNat = count := by
    constructor
    · rintro ⟨host', hhost', hcount, -⟩
      rw [hhost] at hhost'
      cases hhost'
      exact hcount
    · rintro rfl
      refine ⟨host, hhost, rfl, ?_⟩
      rw [hdeadline, UInt32.ofNat_toNat]
  rw [hcount]
  cases call with
  | create | delete =>
    rw [hattempt]
    change 1 = count ↔ count = 1
    exact eq_comm
  | observe =>
    obtain ⟨stored', hstored', hgrown, -⟩ := (growing_of_failsTimes hreach hrests hfails).attempt
    rw [hhost] at hstored'
    cases hstored'
    obtain ⟨record, older, hlog, -⟩ := hwritten
    have hsaved : ¬ Retried.observe.Unsaved hostId c.log := by
      rw [hlog]
      intro hunsaved
      rcases unsaved_cons.mp hunsaved with hfailure | ⟨⟨now, heq⟩, -⟩
      · cases askedAbout_of_failure hfailure
      · cases heq
    rw [hgrown hsaved]
    change min count 4294967295 = count ↔ count < 4294967296
    omega

/-! ## Runs with a failing provider -/

namespace Script

/-- The Host of most scenarios. -/
def firstHost : HostId := ⟨"h"⟩

/-- A provider that cannot be reached. -/
def unobserved : Script := { willing with observation := .error (.transient "unreachable") }

/-- A provider that finds no resource and cannot create one. -/
def uncreated : Script := { willing with created := .error (.transient "unreachable") }

/-- A claim gets a Host, and the provider changes. -/
def assigned (script : Script) : List (Move Script) :=
  .createClaim claimId ⟨⟨1, 1, 1⟩⟩ ⟨0⟩ :: (Move.pass 5 .epoch ++ [.drift script])

/-- A time after the first deadline. -/
def later : Clock := ⟨120000, ⟨0⟩, by decide⟩

/-- The moves of a pass up to its save of the Host. -/
def upToSave (count : Nat) : List (Move Script) :=
  .start :: List.replicate count (.perform later)

/-- The Host is observed twice. -/
def observedTwice : List (Move Script) :=
  Move.pass 8 .epoch ++ upToSave 7

/-- The resource is created twice. -/
def createdTwice : List (Move Script) :=
  Move.pass 10 .epoch ++ Move.pass 8 later ++ upToSave 9

/-- A move that is no crash, and at which the provider answers about the Host as it may between
    failures of the call. -/
def failsAt (call : Retried) (c : Daemon Script) (move : Move Script) : Bool :=
  move.label ≠ .crash ∧ (c.answer? provide move).all fun event =>
    askedAbout event ≠ some firstHost ∨ call.Failure firstHost event ∨
      call = .create ∧ event = ⟨.provider (.observe firstHost), .ok .absent⟩

theorem consecutive_play {call : Retried} {c : Daemon Script} {move : Move Script}
    (h : failsAt call c move = true) :
    Consecutive call firstHost c move.label (c.play provide move) := by
  obtain ⟨hcrash, hevents⟩ := of_decide_eq_true h
  refine ⟨fun event hlog hasked => ?_, fun _ => ⟨hcrash, ?_⟩⟩
  · rw [Daemon.log_play] at hlog
    rw [hlog] at hevents
    rcases of_decide_eq_true hevents with hother | hfailure | ⟨rfl, rfl⟩
    · exact absurd hasked hother
    · exact .inl hfailure
    · exact .inr rfl
  · cases move <;> nofun

/-- The failures of a run in which the call fails again and again. -/
theorem failsTimes_played {call : Retried} {script : Script} {before moves : List (Move Script)}
    (halong : Daemon.Along provide (failsAt call) (played script before) moves = true) :
    FailsTimes model call firstHost (played script before)
      (Daemon.tally provide (call.Failure firstHost) (played script before) moves)
      (Daemon.playAll provide (played script before) moves) := by
  rw [← Nat.zero_add (Daemon.tally _ _ _ _)]
  exact Daemon.counted_playAll model_provides model_loose (failsAt call)
    (fun _ _ => consecutive_play) moves .refl halong

/-- The Host rests between two passes. -/
theorem rests_of_idle {c : Daemon Script} (hlog : c.log = [])
    (hretry : (c.world.database.host? firstHost).map (·.retry) = some RetryState.default) :
    Rests firstHost c := by
  refine ⟨Option.map_eq_some_iff.mp hretry, fun event hmem => ?_⟩
  rw [hlog] at hmem
  cases hmem

/-- The pass has saved the Host with a failure, having read the clock. -/
def writes (call : Retried) : Happened → Bool
  | ⟨.saveHost _, .ok ()⟩ :: ⟨.nowTimestamp, _⟩ :: failed :: _ => call.Failure firstHost failed
  | _ => false

theorem written_of_writes {call : Retried} {log : Happened} (h : writes call log = true) :
    call.Written firstHost log := by
  unfold writes at h
  split at h
  · exact ⟨_, _, rfl, .stamped (of_decide_eq_true h)⟩
  · cases h

/-- The Host before its observations fail. -/
def beforeObserving : Daemon Script :=
  played willing (assigned unobserved)

/-- The Host before its creations fail. -/
def beforeCreating : Daemon Script :=
  played willing (assigned uncreated)

end Script

open Script in
/-- After two failures of `observe` the attempt is two. -/
theorem attempts_grow_of_observedTwice :
    ∃ host, (Daemon.playAll provide beforeObserving observedTwice).world.database.host? firstHost =
        some host ∧ host.retry.attempt.toNat = 2 ∧
      host.retry.nextReconcileAtUnixMs = some (retryDeadline 120000 (UInt32.ofNat 2)) := by
  have hfails : FailsTimes model .observe firstHost beforeObserving
      (Daemon.tally provide (Retried.observe.Failure firstHost) beforeObserving observedTwice)
      (Daemon.playAll provide beforeObserving observedTwice) :=
    failsTimes_played (by decide +kernel)
  have htwice : Daemon.tally provide (Retried.observe.Failure firstHost) beforeObserving
      observedTwice = 2 := by
    decide +kernel
  rw [htwice] at hfails
  exact (attempts_grow_iff (Script.reachable _ _)
    (rests_of_idle (by decide +kernel) (by decide +kernel)) hfails
    (written_of_writes (by decide +kernel)) (by decide +kernel)).mpr (by norm_num [Retried.Grows])

open Script in
/-- After two failures of `create` in a row the attempt is one, and the deadline that for one. -/
theorem attempts_stay_of_createdTwice :
    Reachable model System.anyStep .willing beforeCreating ∧ Rests firstHost beforeCreating ∧
      FailsTimes model .create firstHost beforeCreating 2
        (Daemon.playAll provide beforeCreating createdTwice) ∧
      Retried.create.Written firstHost (Daemon.playAll provide beforeCreating createdTwice).log ∧
      (Daemon.playAll provide beforeCreating createdTwice).log.getLast? =
        some ⟨.nowUnixMs, 120000⟩ ∧
      ((Daemon.playAll provide beforeCreating createdTwice).world.database.host? firstHost).map
          (fun host => (host.retry.attempt, host.retry.nextReconcileAtUnixMs)) =
        some (1, some (retryDeadline 120000 1)) ∧
      retryDeadline 120000 1 ≠ retryDeadline 120000 2 := by
  have hfails : FailsTimes model .create firstHost beforeCreating
      (Daemon.tally provide (Retried.create.Failure firstHost) beforeCreating createdTwice)
      (Daemon.playAll provide beforeCreating createdTwice) :=
    failsTimes_played (by decide +kernel)
  have htwice : Daemon.tally provide (Retried.create.Failure firstHost) beforeCreating
      createdTwice = 2 := by
    decide +kernel
  rw [htwice] at hfails
  exact ⟨Script.reachable _ _, rests_of_idle (by decide +kernel) (by decide +kernel), hfails,
    written_of_writes (by decide +kernel), by decide +kernel, by decide +kernel,
    by decide +kernel⟩

end ControlPlane
