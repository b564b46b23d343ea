import ControlPlane.Controller.Attention
import ControlPlane.Controller.Loop
import ControlPlane.Controller.Scenario

/-!
# No wake-up is lost

The loop rests in its `select!` only once it has dealt with everything it was told of: unless the
last pass failed, that pass had nothing to do, discarded nothing, and read the claims after the
commit of every handler that has called `wake`. What is carried along a run: while a pass is in
progress and nobody has notified since it began, the claims it has read are up to date with the
handlers, and nothing it discarded is left without a wake-up.
-/

namespace ControlPlane

open Interaction

variable {σ : Type} {P : ProviderModel σ}

/-! ## The permit of a world -/

/-- Only the loop takes a stored permit away. -/
theorem permit_answered {world world' : World σ} {effect : Effect} {answer : Answer effect}
    (h : answered P world effect answer world') (hpermit : world.permit = true) :
    world'.permit = true := by
  rcases h with hexec | hfault
  · cases effect with
    | nowUnixMs | listClaims | getHost =>
      obtain ⟨-, rfl⟩ := hexec
      exact hpermit
    | nowTimestamp | enterSpan =>
      cases hexec
      exact hpermit
    | wake =>
      cases hexec
      rfl
    | ensureHost =>
      obtain ⟨_, _, -, -, rfl⟩ := hexec
      exact hpermit
    | saveHost | saveClaimStatus | finalizeClaim =>
      obtain ⟨-, rfl⟩ := hexec
      exact hpermit
    | provider =>
      obtain ⟨_, -, rfl⟩ := hexec
      exact hpermit
  · cases effect with
    | listClaims | getHost | ensureHost | saveHost | saveClaimStatus | finalizeClaim =>
      obtain ⟨-, rfl⟩ := hfault
      exact hpermit
    | _ => cases hfault

/-- Waking stores a permit. -/
theorem permit_wake {world world' : World σ} {answer : Answer .wake}
    (h : answered P world .wake answer world') : world'.permit = true := by
  rcases h with rfl | hfault
  · rfl
  · cases hfault

/-- A world without regard to who has notified the loop. -/
def World.notified (world : World σ) : World σ :=
  { world with permit := true }

/-- What an effect does is not affected by the stored permit. -/
theorem exec_notified {world world' : World σ} {effect : Effect} {answer : Answer effect}
    (h : World.exec P world effect answer world') :
    World.exec P world.notified effect answer world'.notified := by
  cases effect with
  | nowUnixMs | listClaims | getHost =>
    obtain ⟨hanswer, rfl⟩ := h
    exact ⟨hanswer, rfl⟩
  | nowTimestamp | enterSpan | wake =>
    cases h
    rfl
  | ensureHost =>
    obtain ⟨hostId, now, hfresh, hanswer, rfl⟩ := h
    exact ⟨hostId, now, hfresh, hanswer, rfl⟩
  | saveHost | saveClaimStatus | finalizeClaim =>
    obtain ⟨hanswer, rfl⟩ := h
    exact ⟨hanswer, rfl⟩
  | provider =>
    obtain ⟨provider, hanswers, rfl⟩ := h
    exact ⟨provider, hanswers, rfl⟩

theorem fault_notified {world world' : World σ} {effect : Effect} {answer : Answer effect}
    (h : World.fault world effect answer world') :
    World.fault world.notified effect answer world'.notified := by
  cases effect with
  | listClaims | getHost | ensureHost | saveHost | saveClaimStatus | finalizeClaim =>
    obtain ⟨htext, rfl⟩ := h
    exact ⟨htext, rfl⟩
  | _ => cases h

/-- The commit of a handler is a step of the daemon's surroundings. -/
theorem interfere_of_commit {world : World σ} {request : Request} {claim : HostClaim}
    {database : Database} (h : request.commit world.database = .ok (claim, database)) :
    World.Interfere P world { world with database := database } := by
  have hrun : (Storage.run request.commit world.database).2 = database := by
    rw [Storage.run, h]
  rw [← hrun]
  cases request with
  | create id spec now => exact .createClaim id spec now
  | delete id now => exact .markClaimDeleting id now

namespace Service

variable {provider : σ} {s s' : Service σ}

/-! ## The loop runs the daemon -/

/-- The daemon of a service without regard to who has notified the loop. -/
def heard (s : Service σ) : Daemon σ :=
  { s.state with world := s.state.world.notified }

/-- A step of the service is a step of the daemon, or none. -/
theorem Step.heard (hstep : Step P s s') :
    s'.heard = s.heard ∨ ∃ label, (daemon P).Step reconcileOnce s.heard label s'.heard := by
  obtain ⟨⟨world, task, log⟩, phase, waiter, cancelled, inFlight, committed, woken, seen, last⟩ := s
  cases hstep with
  | polled | notified | ticked | interrupted | stopped | entered | limited | wake | cancel =>
    exact .inl rfl
  | called _ _ hnone =>
    cases hnone
    exact .inr ⟨.start, .start⟩
  | awaited _ hdaemon hlabel =>
    right
    rcases hlabel with rfl | rfl
    · cases hdaemon with
      | perform hexec => exact ⟨.perform, .perform (exec_notified hexec)⟩
    · cases hdaemon with
      | fault hfault => exact ⟨.fault, .fault (fault_notified hfault)⟩
  | returned _ hdone =>
    cases hdone
    exact .inr ⟨.finish, .finish⟩
  | commit _ hcommit =>
    exact .inr ⟨.interfere, .interfere (interfere_of_commit (P := P) hcommit)⟩
  | drift hdrift => exact .inr ⟨.interfere, .interfere (.drift _ hdrift)⟩
  | crash hcrash =>
    obtain ⟨after, hafter, rfl⟩ := hcrash
    exact .inr ⟨.crash, .crash ⟨after, hafter, rfl⟩⟩

/-- The loop and its handlers do nothing that the daemon does not do: what holds of every state of
    the daemon holds in every state of the service. -/
theorem reachable_heard (h : Reachable P provider s) :
    ControlPlane.Reachable P System.anyStep provider s.heard := by
  induction h with
  | refl => exact .refl
  | tail _ hstep ih =>
    rcases hstep.heard with hsame | ⟨label, hdaemon⟩
    · rw [hsame]
      exact ih
    · exact System.Reach.step ih hdaemon trivial

/-! ## Nothing is lost -/

/-- The last pass had nothing left to do for any handler that has woken the loop, or failed. -/
def Rested (s : Service σ) : Prop :=
  ∃ result log, s.last = some (result, log) ∧
    ((∃ error, result = .error error) ∨
      result = .ok .idle ∧ (∀ event ∈ log, ¬ Stale event) ∧ ∀ handler ∈ s.woken, handler ∈ s.seen)

/-- What a pass in progress has done so far is up to date. -/
structure UpToDate (log : Happened) (woken seen : List Nat) : Prop where
  read : (∃ answer, ⟨.listClaims, answer⟩ ∈ log) → ∀ handler ∈ woken, handler ∈ seen
  kept : ∀ event ∈ log.tail, ¬ Stale event

theorem upToDate_nil (woken seen : List Nat) : UpToDate [] woken seen where
  read hread := by
    obtain ⟨_, hmem⟩ := hread
    cases hmem
  kept _ hmem := by cases hmem

/-- What is carried along a run. -/
structure Alert (s : Service σ) : Prop where
  committed : ∀ handler ∈ s.inFlight ++ s.woken, handler ∈ s.committed
  unpolled : s.phase ≠ .waiting → s.waiter = .unpolled
  orderly : s.state.Orderly Owed Attended
  stepping : s.state.task ≠ none → ∃ steps, s.phase = .stepping steps
  passing : s.state.task ≠ none →
    s.state.world.permit = true ∨ UpToDate s.state.log s.woken s.seen
  resting : s.phase = .waiting → s.notify.Pending ∨ s.Rested

theorem alert_initial (provider : σ) : (initial provider).Alert where
  committed := nofun
  unpolled h := absurd rfl h
  orderly := Config.orderly_idle _
  stepping h := absurd rfl h
  passing h := absurd rfl h
  resting _ := .inl (.inl rfl)

/-- An effect of the pass in progress leaves the pass up to date, or wakes the loop. -/
theorem Alert.answered (h : s.Alert) {effect : Effect} {answer : Answer effect} {world' : World σ}
    (hpending : s.state.pending = some effect)
    (hanswered : ControlPlane.answered P s.state.world effect answer world') :
    world'.permit = true ∨
      UpToDate (⟨effect, answer⟩ :: s.state.log) s.woken
        (if s.state.pending = some .listClaims then s.committed else s.seen) := by
  have htask : s.state.task ≠ none := by
    intro hnone
    simp [Config.pending, hnone] at hpending
  rcases h.passing htask with hpermit | huptodate
  · exact .inl (permit_answered hanswered hpermit)
  by_cases hwake : effect = .wake
  · subst hwake
    exact .inl (permit_wake hanswered)
  refine .inr ⟨fun hread handler hwoken => ?_, fun event hmem hstale => ?_⟩
  · by_cases hlist : effect = .listClaims
    · rw [if_pos (by rw [hpending, hlist])]
      exact h.committed handler (List.mem_append_right _ hwoken)
    · rw [if_neg (by rw [hpending]; exact fun heq => hlist (Option.some_inj.mp heq))]
      obtain ⟨listed, hmem⟩ := hread
      rcases List.mem_cons.mp hmem with heq | hmem
      · cases heq
        exact absurd rfl hlist
      · exact huptodate.read ⟨listed, hmem⟩ handler hwoken
  · have howed := h.orderly.allows hpending
    change event ∈ s.state.log at hmem
    rcases hlog : s.state.log with _ | ⟨newest, older⟩
    · rw [hlog] at hmem
      cases hmem
    · rw [hlog] at hmem howed
      rcases List.mem_cons.mp hmem with rfl | hmem
      · exact hwake (wake_of_stale hstale howed)
      · exact huptodate.kept event (by rw [hlog]; exact hmem) hstale

/-- A pass that returns having had nothing to do leaves the loop to rest. -/
theorem Alert.returned (h : s.Alert) {result : Except AppError ReconcileResult}
    (hdone : s.state.task = some (.done result)) (hprogress : result ≠ .ok .progress) :
    s.state.world.permit = true ∨ Rested { s with last := some (result, s.state.log) } := by
  have htask : s.state.task ≠ none := by
    rw [hdone]
    exact nofun
  rcases h.passing htask with hpermit | huptodate
  · exact .inl hpermit
  right
  refine ⟨result, s.state.log, rfl, ?_⟩
  rcases result with error | _ | _
  · exact .inl ⟨error, rfl⟩
  · exact absurd rfl hprogress
  · obtain ⟨hsettled, hlisted⟩ := h.orderly _ hdone
    refine .inr ⟨rfl, fun event hmem hstale => ?_, huptodate.read (hlisted rfl)⟩
    rcases hlog : s.state.log with _ | ⟨newest, older⟩
    · rw [hlog] at hmem
      cases hmem
    · rw [hlog] at hmem hsettled
      rcases List.mem_cons.mp hmem with rfl | hmem
      · exact not_stale_of_settled hsettled hstale
      · exact huptodate.kept event (by rw [hlog]; exact hmem) hstale

/-- Where the loop is not in a pass, only what it is told and how it rests can change. -/
theorem Alert.between (h : s.Alert) (hnone : s.state.task = none) (notify : Notify) (phase : Phase)
    (hunpolled : phase ≠ .waiting → notify.waiter = .unpolled)
    (hresting : phase = .waiting → notify.Pending ∨ s.Rested) :
    Alert { s.setNotify notify with phase := phase } where
  committed := h.committed
  unpolled := hunpolled
  orderly := h.orderly
  stepping htask := absurd hnone htask
  passing htask := absurd hnone htask
  resting := hresting

/-- The effect that a step of a pass answers. -/
theorem answered_of_label {c c' : Daemon σ} {label : Label}
    (hstep : (daemon P).Step reconcileOnce c label c')
    (hlabel : label = .perform ∨ label = .fault) :
    ∃ effect answer, c.pending = some effect ∧
      ControlPlane.answered P c.world effect answer c'.world ∧
      c'.log = ⟨effect, answer⟩ :: c.log := by
  rcases hlabel with rfl | rfl
  · cases hstep with
    | perform hexec => exact ⟨_, _, rfl, .inl hexec, rfl⟩
  · cases hstep with
    | fault hfault => exact ⟨_, _, rfl, .inr hfault, rfl⟩

theorem Alert.task_none (h : s.Alert) (hphase : ∀ steps, s.phase ≠ .stepping steps) :
    s.state.task = none := by
  by_contra htask
  obtain ⟨steps, hstepping⟩ := h.stepping htask
  exact hphase steps hstepping

/-- Every step keeps the loop alert. -/
theorem Alert.step (h : s.Alert) (hstep : Step P s s') : s'.Alert := by
  have hstart : ∀ {world : World σ}, Config.Orderly Owed Attended
      (⟨world, some reconcileOnce, []⟩ : Daemon σ) := by
    intro world program htask
    cases htask
    exact reconcileOnce_orderly
  cases hstep with
  | polled hwaiting hpoll =>
    have hnone := h.task_none fun steps => by rw [hwaiting]; exact nofun
    have hrested : s.Rested := (h.resting hwaiting).resolve_left fun hpending => by
      rw [← Notify.poll_ready, hpoll] at hpending
      cases hpending
    exact h.between hnone s.notify.poll.2 s.phase (fun hne => absurd hwaiting hne) fun _ =>
      .inr hrested
  | notified hwaiting hpoll =>
    have hnone := h.task_none fun steps => by rw [hwaiting]; exact nofun
    exact h.between hnone _ _ (fun _ => Notify.waiter_of_poll_ready hpoll) nofun
  | ticked hwaiting | interrupted hwaiting =>
    have hnone := h.task_none fun steps => by rw [hwaiting]; exact nofun
    exact h.between hnone _ _ (fun _ => Notify.waiter_dropped _) nofun
  | stopped hresumed | entered hresumed =>
    have hnone := h.task_none fun steps => by rw [hresumed]; exact nofun
    have hunpolled : s.waiter = .unpolled := h.unpolled (by rw [hresumed]; exact nofun)
    exact h.between hnone s.notify _ (fun _ => hunpolled) nofun
  | @called steps hstepping =>
    refine ⟨h.committed, h.unpolled, hstart, fun _ => ⟨steps, hstepping⟩,
      fun _ => .inr (upToDate_nil _ _), fun hwaiting => ?_⟩
    rw [hstepping] at hwaiting
    cases hwaiting
  | @awaited steps label state' hstepping hdaemon hlabel =>
    have hpassing : state'.world.permit = true ∨ UpToDate state'.log s.woken
        (if s.state.pending = some .listClaims then s.committed else s.seen) := by
      obtain ⟨effect, answer, hpending, hanswered, hlog⟩ := answered_of_label hdaemon hlabel
      rw [hlog]
      exact h.answered hpending hanswered
    refine ⟨h.committed, h.unpolled, h.orderly.step reconcileOnce_orderly hdaemon,
      fun _ => ⟨steps, hstepping⟩, fun _ => hpassing, fun hwaiting => ?_⟩
    rw [hstepping] at hwaiting
    cases hwaiting
  | @returned steps result hstepping hdone =>
    have hunpolled : s.waiter = .unpolled := h.unpolled (by rw [hstepping]; exact nofun)
    refine ⟨h.committed, fun _ => hunpolled, Config.orderly_idle _, fun htask => absurd rfl htask,
      fun htask => absurd rfl htask, fun hwaiting => ?_⟩
    have hprogress : result ≠ .ok .progress := by
      rintro rfl
      cases hwaiting
    rcases h.returned hdone hprogress with hpermit | hrested
    · exact .inl (.inl hpermit)
    · exact .inr hrested
  | limited hstepping hnone =>
    exact h.between hnone _ _ (fun hne => absurd rfl hne) fun _ =>
      .inl (Notify.pending_notifyOne _)
  | @commit handler _ _ _ hfresh hcommit =>
    refine ⟨fun other hmem => ?_, h.unpolled, h.orderly, h.stepping, h.passing, h.resting⟩
    rcases List.mem_cons.mp hmem with rfl | hmem
    · exact List.mem_cons_self
    · exact List.mem_cons_of_mem _ (h.committed other hmem)
  | @wake handler hmem =>
    refine ⟨fun other hother => ?_, fun hne => ?_, h.orderly, h.stepping, fun htask => ?_,
      fun _ => .inl (Notify.pending_notifyOne _)⟩
    · apply h.committed
      rcases List.mem_append.mp hother with hother | hother
      · exact List.mem_append_left _ (List.mem_of_mem_erase hother)
      · rcases List.mem_cons.mp hother with rfl | hother
        · exact List.mem_append_left _ hmem
        · exact List.mem_append_right _ hother
    · have hunpolled : s.notify.waiter = .unpolled := h.unpolled hne
      have hnotify := Notify.notifyOne_of_unpolled hunpolled
      exact congrArg Notify.waiter hnotify
    · obtain ⟨steps, hstepping⟩ := h.stepping htask
      have hunpolled : s.notify.waiter = .unpolled := h.unpolled (by rw [hstepping]; exact nofun)
      have hnotify := Notify.notifyOne_of_unpolled hunpolled
      exact .inl (congrArg Notify.permit hnotify)
  | cancel => exact ⟨h.committed, h.unpolled, h.orderly, h.stepping, h.passing, h.resting⟩
  | drift hdrift => exact ⟨h.committed, h.unpolled, h.orderly, h.stepping, h.passing, h.resting⟩
  | crash hcrash =>
    obtain ⟨provider, -, rfl⟩ := hcrash
    refine ⟨fun handler hmem => ?_, fun hne => absurd rfl hne, Config.orderly_idle _,
      fun htask => absurd rfl htask, fun htask => absurd rfl htask, fun _ => .inl (.inl rfl)⟩
    exact h.committed handler (List.mem_append_right _ hmem)

theorem alert_of_reachable (h : Reachable P provider s) : s.Alert := by
  induction h with
  | refl => exact alert_initial provider
  | tail _ hstep ih => exact ih.step hstep

/-- Whenever the loop waits and there is no permit, stored or handed to the future it waits on, its
    last pass failed, or had nothing to do, discarded nothing, and read the claims after the commit
    of every handler that has called `wake`. -/
theorem no_lost_wakeup (h : Reachable P provider s) (hwaiting : s.phase = .waiting)
    (hnone : ¬ s.notify.Pending) : s.Rested :=
  ((alert_of_reachable h).resting hwaiting).resolve_left hnone

/-! ## A claim that cannot be satisfied -/

/-- The handlers that had committed when a pass with these events read the claims. -/
def readers (committed : List Nat) (log : Happened) : List Nat :=
  if ∃ event ∈ log, event.op = .listClaims then committed else []

theorem readers_cons (committed : List Nat) (event : Event Effect Answer) (log : Happened) :
    readers committed (event :: log) =
      if some event.op = some .listClaims then committed else readers committed log := by
  by_cases hlist : event.op = .listClaims
  · simp [readers, hlist]
  · simp [readers, hlist]

/-- The loop makes the passes that nothing interferes with. -/
theorem reachable_runs {program : Program Effect Answer (Except AppError ReconcileResult)}
    {world world' : World σ} {log log' : Happened} {result : Except AppError ReconcileResult}
    {steps : Nat} (hruns : Runs (World.exec P) program world log result world' log')
    (hstepping : s.phase = .stepping steps)
    (h : Reachable P provider
      { s with state := ⟨world, some program, log⟩, seen := readers s.committed log }) :
    Reachable P provider
      { s with
        state := ⟨world', some (.done result), log'⟩
        seen := readers s.committed log' } := by
  induction hruns with
  | done => exact h
  | @call effect next world answer middle log _ _ _ hexec _ ih =>
    apply ih
    rw [readers_cons]
    exact h.tail (Step.awaited hstepping (.perform hexec) (.inl rfl))

/-- One of them from its start to its end. -/
theorem reachable_pass {world' : World σ} {log : Happened}
    {result : Except AppError ReconcileResult} {steps : Nat} (h : Reachable P provider s)
    (hstepping : s.phase = .stepping steps) (hlimit : steps < maxStepsPerWake)
    (hnone : s.state.task = none) (hpass : Pass P s.state.world result world' log) :
    Reachable P provider
      { s with
        state := .idle world'
        phase := afterPass steps result
        seen := readers s.committed log
        last := some (result, log) } := by
  have hcalled := h.tail (Step.called hstepping hlimit hnone)
  have hdone := reachable_runs hpass hstepping hcalled
  exact hdone.tail (Step.returned hstepping rfl)

/-- No plan fits any request. -/
def unsatisfiable : Script :=
  { Script.willing with plan := .ok none }

/-- The world after a handler has created a claim. -/
def requested : World Script :=
  { database :=
      (Storage.run (Storage.createClaim Script.claimId ⟨⟨1, 1, 1⟩⟩ ⟨0⟩) Database.empty).2
    provider := unsatisfiable
    permit := false }

/-- The service after a handler has committed and woken the loop, and the loop has made two
    passes. -/
def afterTwoPasses : Service Script :=
  { initial unsatisfiable with
    state := .idle (Script.ran (Script.ran requested).2.1).2.1
    committed := [0]
    woken := [0]
    seen := readers [0] (Script.ran (Script.ran requested).2.1).2.2
    last := some (.ok .idle, (Script.ran (Script.ran requested).2.1).2.2) }

theorem reachable_afterTwoPasses : Reachable Script.model unsatisfiable afterTwoPasses := by
  have hcreate : ∃ claim, (Request.create Script.claimId ⟨⟨1, 1, 1⟩⟩ ⟨0⟩).commit Database.empty =
      .ok (claim, requested.database) := by
    have hsucceeds : (Storage.run (Storage.createClaim Script.claimId ⟨⟨1, 1, 1⟩⟩ ⟨0⟩)
        Database.empty).1.toBool = true := by
      decide +kernel
    change ∃ claim, Storage.createClaim Script.claimId ⟨⟨1, 1, 1⟩⟩ ⟨0⟩ Database.empty =
      .ok (claim, (Storage.run (Storage.createClaim Script.claimId ⟨⟨1, 1, 1⟩⟩ ⟨0⟩)
        Database.empty).2)
    revert hsucceeds
    unfold Storage.run
    cases Storage.createClaim Script.claimId ⟨⟨1, 1, 1⟩⟩ ⟨0⟩ Database.empty with
    | ok created => exact fun _ => ⟨created.1, rfl⟩
    | error error => exact nofun
  obtain ⟨claim, hcreate⟩ := hcreate
  have hfresh : 0 ∉ (initial unsatisfiable).committed := nofun
  have hcommitted : Reachable Script.model unsatisfiable _ :=
    .tail .refl (Step.commit hfresh hcreate)
  have hwoken := hcommitted.tail (Step.wake List.mem_cons_self)
  have hnotified := hwoken.tail (Step.notified rfl rfl)
  have hentered := hnotified.tail (Step.entered rfl rfl)
  have hfirst : (Script.ran requested).1 = .ok .progress := by decide +kernel
  have hsecond : (Script.ran (Script.ran requested).2.1).1 = .ok .idle := by decide +kernel
  have hpass := Script.pass_ran requested
  have hpass' := Script.pass_ran (Script.ran requested).2.1
  rw [hfirst] at hpass
  rw [hsecond] at hpass'
  have honce := reachable_pass hentered rfl (by decide) rfl hpass
  exact reachable_pass honce rfl (by decide) rfl hpass'

/-- The loop rests after the claim was found unsatisfiable. -/
theorem no_lost_wakeup_of_unsatisfiable : afterTwoPasses.woken = [0] ∧ afterTwoPasses.Rested :=
  ⟨rfl, no_lost_wakeup reachable_afterTwoPasses rfl (by decide +kernel)⟩

end Service

end ControlPlane
