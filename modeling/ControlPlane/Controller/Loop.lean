import ControlPlane.Controller.World
import ControlPlane.Interaction.Notify

/-!
# The loop of the controller

`HostController::run` among the RPC handlers that create and delete claims: the loop waits in its
`select!` and then makes up to `MAX_STEPS_PER_WAKE` passes, a handler commits and then wakes the
loop, and the two share one `Notify`. The passes are those of the daemon, whose runs the loop
restricts: it is the only one to start them.
-/

namespace ControlPlane

open Interaction

variable {σ : Type}

/-- `MAX_STEPS_PER_WAKE`. -/
def maxStepsPerWake : Nat := 64

/-- A mutating request. -/
inductive Request where
  | create (id : HostClaimId) (spec : HostClaimSpec) (now : Timestamp)
  | delete (id : HostClaimId) (now : Timestamp)

/-- The call to `Storage` its handler awaits. -/
def Request.commit : Request → Database → Except AppError (HostClaim × Database)
  | .create id spec now => Storage.createClaim id spec now
  | .delete id now => Storage.markClaimDeleting id now

/-- Where `run` is. -/
inductive Phase where
  /-- in its `select!` -/
  | waiting
  /-- behind it -/
  | resumed
  /-- in the `for` loop, with that many passes that made progress -/
  | stepping (steps : Nat)
  /-- it has returned -/
  | stopped

/-- The loop and the handlers. Handlers are told apart by numbers. The last four fields are not
    part of the program: they record what has happened. -/
structure Service (σ : Type) where
  state : Daemon σ
  phase : Phase
  waiter : Waiter
  cancelled : Bool
  /-- the handlers that have committed and come to `wake` next -/
  inFlight : List Nat
  /-- the handlers that have committed -/
  committed : List Nat
  /-- the handlers that have called `wake` -/
  woken : List Nat
  /-- the handlers that had committed when the last pass read the claims -/
  seen : List Nat
  /-- what the last pass returned, and its events -/
  last : Option (Except AppError ReconcileResult × Log Effect Answer)

namespace Service

/-- The `Notify` of the `ReconcileHandle`. -/
def notify (s : Service σ) : Notify :=
  ⟨s.state.world.permit, s.waiter⟩

def setNotify (s : Service σ) (notify : Notify) : Service σ :=
  { s with
    state.world.permit := notify.permit
    waiter := notify.waiter }

/-- Where `run` goes on when a pass has returned. -/
def afterPass (steps : Nat) : Except AppError ReconcileResult → Phase
  | .ok .progress => .stepping (steps + 1)
  | .ok .idle => .waiting
  | .error _ => .waiting

/-- `run` has woken itself and comes to its `select!` for the first time. -/
def initial (provider : σ) : Service σ where
  state := .idle (World.initial provider)
  phase := .waiting
  waiter := .unpolled
  cancelled := false
  inFlight := []
  committed := []
  woken := []
  seen := []
  last := none

/-- One step of the loop, of a handler, or of their surroundings. -/
inductive Step (P : ProviderModel σ) (s : Service σ) : Service σ → Prop where
  /-- the `notified()` branch is polled and not ready -/
  | polled : s.phase = .waiting → s.notify.poll.1 = false → Step P s (s.setNotify s.notify.poll.2)
  /-- the `notified()` branch is polled and ready -/
  | notified : s.phase = .waiting → s.notify.poll.1 = true →
      Step P s { s.setNotify s.notify.poll.2 with phase := .resumed }
  /-- the `tick()` branch is ready -/
  | ticked : s.phase = .waiting → Step P s { s.setNotify s.notify.dropped with phase := .resumed }
  /-- the `cancelled()` branch is ready -/
  | interrupted : s.phase = .waiting → s.cancelled = true →
      Step P s { s.setNotify s.notify.dropped with phase := .stopped }
  | stopped : s.phase = .resumed → s.cancelled = true → Step P s { s with phase := .stopped }
  | entered : s.phase = .resumed → s.cancelled = false → Step P s { s with phase := .stepping 0 }
  /-- the next pass -/
  | called {steps} : s.phase = .stepping steps → steps < maxStepsPerWake → s.state.task = none →
      Step P s
        { s with
          state := ⟨s.state.world, some reconcileOnce, []⟩
          seen := [] }
  /-- an effect of the pass in progress -/
  | awaited {steps label state'} : s.phase = .stepping steps →
      (daemon P).Step reconcileOnce s.state label state' → label = .perform ∨ label = .fault →
      Step P s
        { s with
          state := state'
          seen := if s.state.pending = some .listClaims then s.committed else s.seen }
  | returned {steps result} : s.phase = .stepping steps → s.state.task = some (.done result) →
      Step P s
        { s with
          state := .idle s.state.world
          phase := afterPass steps result
          last := some (result, s.state.log) }
  /-- every pass has made progress -/
  | limited : s.phase = .stepping maxStepsPerWake → s.state.task = none →
      Step P s { s.setNotify s.notify.notifyOne with phase := .waiting }
  /-- a handler whose call to `Storage` succeeds -/
  | commit {handler request claim database} : handler ∉ s.committed →
      Request.commit request s.state.world.database = .ok (claim, database) →
      Step P s
        { s with
          state.world.database := database
          inFlight := handler :: s.inFlight
          committed := handler :: s.committed }
  /-- `ReconcileHandle::wake` in a handler -/
  | wake {handler} : handler ∈ s.inFlight →
      Step P s
        { s.setNotify s.notify.notifyOne with
          inFlight := s.inFlight.erase handler
          woken := handler :: s.woken }
  | cancel : Step P s { s with cancelled := true }
  | drift {provider} : P.drift s.state.world.provider provider →
      Step P s { s with state.world.provider := provider }
  /-- a crash of the daemon and its restart, up to the first `select!` -/
  | crash {world} : World.crash P s.state.world s.state.pending world →
      Step P s
        { s with
          state := .idle world
          phase := .waiting
          waiter := .unpolled
          cancelled := false
          inFlight := []
          seen := []
          last := none }

/-- The states of the service. -/
def Reachable (P : ProviderModel σ) (provider : σ) : Service σ → Prop :=
  Relation.ReflTransGen (Step P) (initial provider)

end Service

end ControlPlane
