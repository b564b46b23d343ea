import ControlPlane.Controller.World
import Mathlib.Algebra.Order.BigOperators.Group.List
import Mathlib.Algebra.Order.Ring.Nat

/-!
# Scenarios

An executable reading of the daemon: `respond` answers an effect as `World.exec` allows, and
`Daemon.play` does one step of the running daemon, so that a list of moves computes a reachable
state. A move that does not apply leaves the state as it is.
-/

namespace ControlPlane

open Interaction

variable {σ : Type}

/-! ## Answering effects -/

/-- The clock readings of a step. -/
structure Clock where
  nowMs : Int64
  now : Timestamp
  nonneg : 0 ≤ nowMs

/-- The Unix epoch. -/
def Clock.epoch : Clock := ⟨0, ⟨0⟩, by decide⟩

/-- An identity no stored Host has: it is longer than all of them together. -/
def Database.unusedHostId (db : Database) : HostId :=
  ⟨String.ofList (List.replicate ((db.hosts.map (·.id.text.length)).sum + 1) 'h')⟩

theorem Database.unusedHostId_ne (db : Database) :
    ∀ row ∈ db.hosts, row.id ≠ db.unusedHostId := by
  intro row hmem heq
  have hle : row.id.text.length ≤ (db.hosts.map (·.id.text.length)).sum :=
    List.single_le_sum (fun _ _ => Nat.zero_le _) _ (List.mem_map_of_mem hmem)
  rw [heq] at hle
  simp only [unusedHostId, String.length_ofList, List.length_replicate] at hle
  omega

/-- Run a mutator of `Storage` on the database of a world. -/
def World.commit {α : Type} (operation : Database → Except AppError (α × Database))
    (world : World σ) : Except AppError α × World σ :=
  ((Storage.run operation world.database).1,
    { world with database := (Storage.run operation world.database).2 })

/-- Answer an effect, with a provider that is a function. -/
def World.respond (provide : σ → (call : ProviderCall) → ProviderAnswer call × σ) (clock : Clock)
    (world : World σ) : (effect : Effect) → Answer effect × World σ
  | .nowUnixMs => (clock.nowMs, world)
  | .nowTimestamp => (clock.now, world)
  | .wake => ((), { world with permit := true })
  | .enterSpan _ => ((), world)
  | .listClaims => (Storage.listClaims world.database, world)
  | .getHost hostId => (Storage.getHost world.database hostId, world)
  | .ensureHost claimId planId resources =>
    world.commit
      (Storage.ensureHost claimId planId resources world.database.unusedHostId clock.now)
  | .saveHost record => world.commit (Storage.saveHost record)
  | .saveClaimStatus record => world.commit (Storage.saveClaimStatus record)
  | .finalizeClaim claimId => world.commit (Storage.finalizeClaim claimId)
  | .provider call =>
    ((provide world.provider call).1,
      { world with provider := (provide world.provider call).2 })

/-- The provider does what the function says, among other things. -/
def ProviderModel.Provides (P : ProviderModel σ)
    (provide : σ → (call : ProviderCall) → ProviderAnswer call × σ) : Prop :=
  ∀ provider call, P.answers provider call (provide provider call).1 (provide provider call).2

section respond

variable {P : ProviderModel σ} {provide : σ → (call : ProviderCall) → ProviderAnswer call × σ}

theorem World.respond_exec (hprovides : P.Provides provide) (clock : Clock) (world : World σ)
    (effect : Effect) :
    World.exec P world effect (world.respond provide clock effect).1
      (world.respond provide clock effect).2 := by
  cases effect with
  | nowUnixMs => exact ⟨clock.nonneg, rfl⟩
  | nowTimestamp | wake | enterSpan => rfl
  | listClaims | getHost => exact ⟨rfl, rfl⟩
  | ensureHost claimId planId resources =>
    exact ⟨world.database.unusedHostId, clock.now, world.database.unusedHostId_ne, rfl, rfl⟩
  | saveHost | saveClaimStatus | finalizeClaim => exact ⟨rfl, rfl⟩
  | provider call => exact ⟨_, hprovides world.provider call, rfl⟩

end respond

/-! ## Playing moves -/

/-- The steps a scenario may ask for. -/
inductive Move (σ : Type) where
  | createClaim (id : HostClaimId) (spec : HostClaimSpec) (now : Timestamp)
  | markClaimDeleting (id : HostClaimId) (now : Timestamp)
  | drift (provider : σ)
  | start
  | perform (clock : Clock)
  | finish
  | crash

/-- The kind of step of a move. -/
def Move.label : Move σ → Label
  | .createClaim _ _ _ | .markClaimDeleting _ _ | .drift _ => .interfere
  | .start => .start
  | .perform _ => .perform
  | .finish => .finish
  | .crash => .crash

/-- The provider changes by its calls only. -/
def Move.plain : Move σ → Bool
  | .drift _ | .crash => false
  | _ => true

/-- A whole pass of at most `count` effects. -/
def Move.pass (count : Nat) (clock : Clock) : List (Move σ) :=
  .start :: (List.replicate count (.perform clock) ++ [.finish])

namespace Daemon

/-- Make a move. -/
def play (provide : σ → (call : ProviderCall) → ProviderAnswer call × σ) (c : Daemon σ) :
    Move σ → Daemon σ
  | .createClaim id spec now =>
    { c with world := (c.world.commit (Storage.createClaim id spec now)).2 }
  | .markClaimDeleting id now =>
    { c with world := (c.world.commit (Storage.markClaimDeleting id now)).2 }
  | .drift provider => { c with world := { c.world with provider := provider } }
  | .start =>
    match c.task with
    | none => ⟨c.world, some reconcileOnce, []⟩
    | some _ => c
  | .perform clock =>
    match c.task with
    | some (.call effect next) =>
      let answered := c.world.respond provide clock effect
      ⟨answered.2, some (next answered.1), ⟨effect, answered.1⟩ :: c.log⟩
    | _ => c
  | .finish =>
    match c.task with
    | some (.done _) => .idle c.world
    | _ => c
  | .crash => .idle { c.world with permit := true }

/-- Make some moves. -/
def playAll (provide : σ → (call : ProviderCall) → ProviderAnswer call × σ) :
    Daemon σ → List (Move σ) → Daemon σ
  | c, [] => c
  | c, move :: moves => playAll provide (c.play provide move) moves

/-- A condition on the moves made. -/
def Along (provide : σ → (call : ProviderCall) → ProviderAnswer call × σ)
    (condition : Daemon σ → Move σ → Bool) : Daemon σ → List (Move σ) → Bool
  | _, [] => true
  | c, move :: moves => condition c move && Along provide condition (c.play provide move) moves

/-- A provider that may change in any way and comes back from a crash as it was. -/
structure Loose (P : ProviderModel σ) : Prop where
  drift : ∀ provider provider', P.drift provider provider'
  crash : ∀ provider call, P.crash provider call provider

variable {P : ProviderModel σ} {provide : σ → (call : ProviderCall) → ProviderAnswer call × σ}
  {allowed : Daemon σ → Label → Daemon σ → Prop} {provider : σ} {c : Daemon σ}

/-- A move in which the provider changes only by its calls is a step of the daemon, or does not
    apply. -/
theorem play_step_plain (hprovides : P.Provides provide) (c : Daemon σ) {move : Move σ}
    (hplain : move.plain = true) :
    (daemon P).Step reconcileOnce c move.label (c.play provide move) ∨
      c.play provide move = c := by
  obtain ⟨world, task, log⟩ := c
  cases move with
  | createClaim id spec now => exact .inl (.interfere (.createClaim id spec now))
  | markClaimDeleting id now => exact .inl (.interfere (.markClaimDeleting id now))
  | drift | crash => cases hplain
  | start =>
    cases task with
    | none => exact .inl .start
    | some program => exact .inr rfl
  | perform clock =>
    rcases task with _ | ⟨value⟩ | ⟨effect, next⟩
    · exact .inr rfl
    · exact .inr rfl
    · exact .inl (.perform (World.respond_exec hprovides clock world effect))
  | finish =>
    rcases task with _ | ⟨value⟩ | ⟨effect, next⟩
    · exact .inr rfl
    · exact .inl .finish
    · exact .inr rfl

/-- A move is a step of the daemon, or does not apply. -/
theorem play_step (hprovides : P.Provides provide) (hloose : Loose P) (c : Daemon σ)
    (move : Move σ) :
    (daemon P).Step reconcileOnce c move.label (c.play provide move) ∨
      c.play provide move = c := by
  cases move with
  | drift provider => exact .inl (.interfere (.drift provider (hloose.drift _ _)))
  | crash => exact .inl (.crash ⟨c.world.provider, hloose.crash _ _, rfl⟩)
  | _ => exact play_step_plain hprovides c rfl

/-- The state a scenario without crashes and outside changes ends in is reachable. -/
theorem reachable_plain (hprovides : P.Provides provide)
    (hallowed : ∀ c (move : Move σ), move.plain = true →
      allowed c move.label (c.play provide move)) {moves : List (Move σ)}
    (hplain : ∀ move ∈ moves, move.plain = true) (h : Reachable P allowed provider c) :
    Reachable P allowed provider (playAll provide c moves) := by
  induction moves generalizing c with
  | nil => exact h
  | cons move moves ih =>
    apply ih fun move hmem => hplain move (List.mem_cons_of_mem _ hmem)
    have hfirst := hplain move List.mem_cons_self
    rcases play_step_plain hprovides c hfirst with hstep | hsame
    · exact System.Reach.step h hstep (hallowed c move hfirst)
    · rw [hsame]
      exact h

/-- A scenario is a run, if its moves are steps, along steps that they justify. -/
theorem reach_along (condition : Daemon σ → Move σ → Bool)
    (hmove : ∀ c move, condition c move = true →
      (daemon P).Step reconcileOnce c move.label (c.play provide move) ∨ c.play provide move = c)
    (hallowed : ∀ c move, condition c move = true →
      allowed c move.label (c.play provide move)) (moves : List (Move σ))
    (halong : Along provide condition c moves = true) :
    (daemon P).Reach reconcileOnce allowed c (playAll provide c moves) := by
  induction moves generalizing c with
  | nil => exact .refl
  | cons move moves ih =>
    obtain ⟨hfirst, hrest⟩ := (Bool.and_eq_true _ _).mp halong
    refine Relation.ReflTransGen.trans ?_ (ih hrest)
    rcases hmove c move hfirst with hstep | hsame
    · exact .single ⟨_, hstep, hallowed c move hfirst⟩
    · rw [hsame]

/-- A scenario is a run, along steps that its moves justify. -/
theorem reach_playAll (hprovides : P.Provides provide) (hloose : Loose P)
    (condition : Daemon σ → Move σ → Bool)
    (hallowed : ∀ c move, condition c move = true →
      allowed c move.label (c.play provide move)) (moves : List (Move σ))
    (halong : Along provide condition c moves = true) :
    (daemon P).Reach reconcileOnce allowed c (playAll provide c moves) :=
  reach_along condition (fun c move _ => play_step hprovides hloose c move) hallowed moves halong

/-- The state a scenario ends in is reachable, along steps that its moves justify. -/
theorem reachable_playAll (hprovides : P.Provides provide) (hloose : Loose P)
    (condition : Daemon σ → Move σ → Bool)
    (hallowed : ∀ c move, condition c move = true →
      allowed c move.label (c.play provide move)) (moves : List (Move σ))
    (h : Reachable P allowed provider c) (halong : Along provide condition c moves = true) :
    Reachable P allowed provider (playAll provide c moves) :=
  h.trans (reach_playAll hprovides hloose condition hallowed moves halong)

/-- The states a scenario goes through, one after another, are a history of the daemon. -/
theorem history_playAll {moves : List (Move σ)}
    (hmoves : ∀ move ∈ moves, ∀ c : Daemon σ,
      (daemon P).Step reconcileOnce c move.label (c.play provide move) ∨
        c.play provide move = c) (c : Daemon σ) :
    System.History (daemon P) reconcileOnce
      (fun moment => playAll provide c (moves.take moment)) := by
  intro moment
  induction moves generalizing c moment with
  | nil =>
    dsimp only
    rw [List.take_nil, List.take_nil]
    exact .inl rfl
  | cons move moves ih =>
    cases moment with
    | zero =>
      rcases hmoves move List.mem_cons_self c with hstep | hsame
      · exact .inr ⟨move.label, hstep⟩
      · exact .inl hsame
    | succ moment =>
      exact ih (fun other hmem => hmoves other (List.mem_cons_of_mem _ hmem))
        (c.play provide move) moment

/-- The event a move adds to the log. -/
def answer? (provide : σ → (call : ProviderCall) → ProviderAnswer call × σ) (c : Daemon σ) :
    Move σ → Option (Event Effect Answer)
  | .perform clock =>
    match c.task with
    | some (.call effect _) => some ⟨effect, (c.world.respond provide clock effect).1⟩
    | _ => none
  | _ => none

theorem log_play {move : Move σ} {event : Event Effect Answer} :
    (c.play provide move).log = event :: c.log ↔ c.answer? provide move = some event := by
  obtain ⟨world, task, log⟩ := c
  have hsame : log ≠ event :: log := fun heq => List.cons_ne_self _ _ heq.symm
  have hnil : [] ≠ event :: log := fun heq => List.cons_ne_nil _ _ heq.symm
  cases move with
  | createClaim | markClaimDeleting | drift => simp [play, answer?, hsame]
  | crash => simp [play, answer?, Config.idle]
  | start => cases task <;> simp [play, answer?]
  | finish => rcases task with _ | ⟨value⟩ | ⟨effect, next⟩ <;> simp [play, answer?, Config.idle]
  | perform clock => rcases task with _ | ⟨value⟩ | ⟨effect, next⟩ <;> simp [play, answer?]

/-- How many of the events of some moves are of a kind. -/
def tally (provide : σ → (call : ProviderCall) → ProviderAnswer call × σ)
    (kind : Event Effect Answer → Prop) [DecidablePred kind] : Daemon σ → List (Move σ) → Nat
  | _, [] => 0
  | c, move :: moves =>
    ((c.answer? provide move).any (kind ·)).toNat + tally provide kind (c.play provide move) moves

/-- The events of a kind in a scenario, counted. -/
theorem counted_playAll (hprovides : P.Provides provide) (hloose : Loose P)
    (condition : Daemon σ → Move σ → Bool)
    (hallowed : ∀ c move, condition c move = true → allowed c move.label (c.play provide move))
    {kind : Event Effect Answer → Prop} [DecidablePred kind] (moves : List (Move σ))
    {start : Daemon σ} {count : Nat}
    (h : System.Counted (daemon P) reconcileOnce allowed
      (fun c _ c' => ∃ event, c'.log = event :: c.log ∧ kind event) start count c)
    (halong : Along provide condition c moves = true) :
    System.Counted (daemon P) reconcileOnce allowed
      (fun c _ c' => ∃ event, c'.log = event :: c.log ∧ kind event) start
      (count + tally provide kind c moves) (playAll provide c moves) := by
  induction moves generalizing c count with
  | nil => exact h
  | cons move moves ih =>
    obtain ⟨hfirst, hrest⟩ := (Bool.and_eq_true _ _).mp halong
    have hcounts : (∃ event, (c.play provide move).log = event :: c.log ∧ kind event) ↔
        (c.answer? provide move).any (kind ·) = true := by
      simp only [log_play, Option.any_eq_true, decide_eq_true_eq]
    rw [tally, ← Nat.add_assoc]
    refine ih ?_ hrest
    rcases play_step hprovides hloose c move with hstep | hsame
    · cases hany : (c.answer? provide move).any (kind ·) with
      | true => exact h.one hstep (hallowed c move hfirst) (hcounts.mpr hany)
      | false =>
        refine h.other hstep (hallowed c move hfirst) fun hcount => ?_
        rw [hcounts.mp hcount] at hany
        cases hany
    · have hnone : (c.answer? provide move).any (kind ·) = false := by
        rw [Bool.eq_false_iff, ne_eq, ← hcounts, hsame]
        rintro ⟨event, hlog, -⟩
        exact List.cons_ne_self _ _ hlog.symm
      rw [hnone, hsame]
      exact h

end Daemon

/-! ## A provider that follows a script -/

/-- What a provider answers until it is told otherwise. -/
structure Script where
  plan : Except ProviderError (Option Plan)
  observation : Except ProviderError ProviderObservation
  created : Except ProviderError CreateOutcome
  deleted : Except ProviderError DeleteOutcome

namespace Script

/-- The answer to a call. -/
def provide (script : Script) : (call : ProviderCall) → ProviderAnswer call × Script
  | .selectPlan _ => (script.plan, script)
  | .observe _ => (script.observation, script)
  | .create _ _ => (script.created, script)
  | .delete _ => (script.deleted, script)

/-- The provider that follows a script; the script may be exchanged at any time. -/
def model : ProviderModel Script where
  answers script call answer script' := (answer, script') = script.provide call
  drift _ _ := True
  crash script _ script' := script' = script

theorem model_provides : model.Provides provide := fun _ _ => rfl

theorem model_loose : Daemon.Loose model := ⟨fun _ _ => trivial, fun _ _ => rfl⟩

/-- A provider without a resource, ready to create and to delete one. -/
def willing : Script where
  plan := .ok (some ⟨"plan", ⟨1, 1, 1⟩⟩)
  observation := .ok .absent
  created := .ok (.created ⟨"resource", ⟨"h"⟩, .ready⟩)
  deleted := .ok .deleted

/-- The provider once it has the resource, in some stage of its life. -/
def holding (lifecycle : ProviderLifecycle) : Script :=
  { willing with observation := .ok (.present ⟨"resource", ⟨"h"⟩, lifecycle⟩) }

/-- The claim of most scenarios. -/
def claimId : HostClaimId := ⟨"claim"⟩

/-- A claim is created and gets a Host, which becomes Ready. -/
def readied : List (Move Script) :=
  .createClaim claimId ⟨⟨1, 1, 1⟩⟩ ⟨0⟩ ::
    (Move.pass 5 .epoch ++ Move.pass 10 .epoch ++ [.drift (holding .ready)])

/-- The claim is deleted then, up to the save of the intent to delete its Host. -/
def intending : List (Move Script) :=
  readied ++ .markClaimDeleting claimId ⟨1⟩ :: .start :: List.replicate 7 (.perform .epoch)

/-- The state a scenario ends in, from an empty database. -/
def played (script : Script) (moves : List (Move Script)) : Daemon Script :=
  Daemon.playAll provide (.idle (World.initial script)) moves

/-- It is reachable, along steps that its moves justify. -/
theorem reachable_played {allowed : Daemon Script → Label → Daemon Script → Prop}
    {script : Script} {moves : List (Move Script)} (condition : Daemon Script → Move Script → Bool)
    (hallowed : ∀ c move, condition c move = true →
      allowed c move.label (c.play provide move))
    (halong : Daemon.Along provide condition (.idle (World.initial script)) moves = true) :
    Reachable model allowed script (played script moves) :=
  Daemon.reachable_playAll model_provides model_loose condition hallowed moves .refl halong

/-- It is reachable. -/
theorem reachable (script : Script) (moves : List (Move Script)) :
    Reachable model System.anyStep script (played script moves) := by
  refine reachable_played (fun _ _ => true) (fun _ _ _ => trivial) ?_
  generalize (Config.idle (World.initial script) : Daemon Script) = c
  induction moves generalizing c with
  | nil => rfl
  | cons move moves ih => exact ih _

/-- What a pass from a given state returns, the state it ends in, and its events. -/
def ran (world : World Script) :
    Except AppError ReconcileResult × World Script × Log Effect Answer :=
  reconcileOnce.eval (World.respond provide .epoch) world []

theorem pass_ran (world : World Script) :
    Pass model world (ran world).1 (ran world).2.1 (ran world).2.2 :=
  Runs.of_eval (fun world => World.respond_exec model_provides .epoch world) reconcileOnce world []

end Script

end ControlPlane
