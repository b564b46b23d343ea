import ControlPlane.Controller.Reconcile
import ControlPlane.Interaction.System
import ControlPlane.Storage.Operations

/-!
# The daemon as a transition system

One `HostController` runs `reconcile_once` again and again. Between any two of its effects the
RPC handlers `host.claim.create` and `host.claim.delete` may commit a mutation, the provider may
change on its own, and the process may crash and start over on the committed state.
-/

namespace ControlPlane

open Interaction

/-- What the daemon acts on: its database, the provider's state, and the permit stored in its
    `Notify`. -/
structure World (σ : Type) where
  database : Database
  provider : σ
  permit : Bool

variable {σ : Type}

namespace World

/-- A mutator of `Storage`, run on the database of the world. -/
def commits {α : Type} (operation : Database → Except AppError (α × Database)) (world : World σ)
    (answer : Except AppError α) (world' : World σ) : Prop :=
  answer = (Storage.run operation world.database).1 ∧
    world' = { world with database := (Storage.run operation world.database).2 }

/-- An effect of the controller, done and answered. An identity drawn from `HostId::new()` is
    not the identity of a stored Host. -/
def exec (P : ProviderModel σ) (world : World σ) :
    (effect : Effect) → Answer effect → World σ → Prop
  | .nowUnixMs, nowMs, world' => 0 ≤ nowMs ∧ world' = world
  | .nowTimestamp, _, world' => world' = world
  | .wake, _, world' => world' = { world with permit := true }
  | .enterSpan _, _, world' => world' = world
  | .listClaims, answer, world' => answer = Storage.listClaims world.database ∧ world' = world
  | .getHost hostId, answer, world' =>
    answer = Storage.getHost world.database hostId ∧ world' = world
  | .ensureHost claimId planId resources, answer, world' =>
    ∃ hostId now, (∀ row ∈ world.database.hosts, row.id ≠ hostId) ∧
      commits (Storage.ensureHost claimId planId resources hostId now) world answer world'
  | .saveHost record, answer, world' => commits (Storage.saveHost record) world answer world'
  | .saveClaimStatus record, answer, world' =>
    commits (Storage.saveClaimStatus record) world answer world'
  | .finalizeClaim claimId, answer, world' =>
    commits (Storage.finalizeClaim claimId) world answer world'
  | .provider call, answer, world' =>
    ∃ provider, P.answers world.provider call answer provider ∧
      world' = { world with provider := provider }

/-- A call to `Storage` that fails for a reason of its own; nothing is written. -/
def fault (world : World σ) : (effect : Effect) → Answer effect → World σ → Prop
  | .listClaims, answer, world' => (∃ text, answer = .error (.internal text)) ∧ world' = world
  | .getHost _, answer, world' => (∃ text, answer = .error (.internal text)) ∧ world' = world
  | .ensureHost _ _ _, answer, world' =>
    (∃ text, answer = .error (.internal text)) ∧ world' = world
  | .saveHost _, answer, world' => (∃ text, answer = .error (.internal text)) ∧ world' = world
  | .saveClaimStatus _, answer, world' =>
    (∃ text, answer = .error (.internal text)) ∧ world' = world
  | .finalizeClaim _, answer, world' =>
    (∃ text, answer = .error (.internal text)) ∧ world' = world
  | _, _, _ => False

/-- What the other tasks of the daemon, and the provider on its own, may do between two
    effects. -/
inductive Interfere (P : ProviderModel σ) (world : World σ) : World σ → Prop where
  /-- the commit of `Storage::create_claim` -/
  | createClaim (id : HostClaimId) (spec : HostClaimSpec) (now : Timestamp) :
      Interfere P world
        { world with
          database := (Storage.run (Storage.createClaim id spec now) world.database).2 }
  /-- the commit of `Storage::mark_claim_deleting` -/
  | markClaimDeleting (id : HostClaimId) (now : Timestamp) :
      Interfere P world
        { world with
          database := (Storage.run (Storage.markClaimDeleting id now) world.database).2 }
  /-- `ReconcileHandle::wake` in a handler -/
  | wake : Interfere P world { world with permit := true }
  | drift (provider : σ) : P.drift world.provider provider →
      Interfere P world { world with provider := provider }

/-- A crash and the restart after it: the database keeps what was committed, and `run` wakes
    itself before its first wait. -/
def crash (P : ProviderModel σ) (world : World σ) (pending : Option Effect) (world' : World σ) :
    Prop :=
  let call : Option ProviderCall :=
    match pending with
    | some (.provider call) => some call
    | _ => none
  ∃ provider, P.crash world.provider call provider ∧
    world' = { world with provider := provider, permit := true }

/-- The world of a daemon started for the first time. -/
def initial (provider : σ) : World σ :=
  { database := Database.empty, provider, permit := true }

end World

/-- The daemon with a provider. -/
def daemon (P : ProviderModel σ) : System Effect Answer (World σ) where
  exec := World.exec P
  fault := World.fault
  interfere := World.Interfere P
  crash := World.crash P

/-- `reconcile_once` as the program the controller repeats. -/
def reconcileOnce : Program Effect Answer (Except AppError ReconcileResult) :=
  Controller.reconcileOnce.run

/-- A state of the running daemon. -/
abbrev Daemon (σ : Type) := Config Effect Answer (World σ) (Except AppError ReconcileResult)

/-- The states of the daemon that satisfy `allowed` step by step from an empty database. -/
abbrev Reachable (P : ProviderModel σ) (allowed : Daemon σ → Label → Daemon σ → Prop)
    (provider : σ) (c : Daemon σ) : Prop :=
  (daemon P).Reach reconcileOnce allowed (.idle (World.initial provider)) c

/-- A call of `reconcile_once` that nothing interferes with. -/
abbrev Pass (P : ProviderModel σ) (world : World σ) (result : Except AppError ReconcileResult)
    (world' : World σ) (log : Log Effect Answer) : Prop :=
  Runs (World.exec P) reconcileOnce world [] result world' log

end ControlPlane
