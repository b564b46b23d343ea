import ControlPlane.Process
import Mathlib.Data.List.Basic

/-!
# The tasks of a daemon

`main` from where it has spawned its two tasks to its end, the end of the controller, and the RPC
server with the tasks of the connections it has accepted: `serve_bound` with its connection limit,
and the order in which `main` cancels, joins and closes. What a connection is used for is left open;
its requests run in tasks that `hyper` spawns, which nobody here joins.
-/

namespace ControlPlane.Process

open Rpc

/-- `MAX_CONNECTIONS`. -/
def maxConnections : Nat := 64

/-- How a task has ended, as its handle tells. -/
inductive Joined where
  | returned (result : Except Failure Unit)
  | panicked (text : String)

/-- `task_result`. -/
def taskResult (taskName : String) : Joined → Except Failure Unit
  | .returned result => result
  | .panicked text => .error ⟨taskName ++ " task panicked", some ⟨.other, text⟩⟩

/-- `Result::and`. -/
def resultAnd (first second : Except Failure Unit) : Except Failure Unit :=
  match first with
  | .ok () => second
  | .error failure => .error failure

/-- `Exit`. -/
inductive Exit where
  | signal (result : Except Failure Unit)
  | controller (joined : Joined)
  | rpc (joined : Joined)

/-- The `primary_result` of `main`, from how its tasks have ended. -/
def Exit.primaryResult (controller rpc : Joined) : Exit → Except Failure Unit
  | .signal result =>
    resultAnd (resultAnd result (taskResult "Host controller" controller))
      (taskResult "local RPC" rpc)
  | .controller joined =>
    resultAnd (taskResult "Host controller" joined) (taskResult "local RPC" rpc)
  | .rpc joined =>
    resultAnd (taskResult "local RPC" joined) (taskResult "Host controller" controller)

/-- Where `main` is: in its `select!`, joining its tasks, closing the pools, at its end. -/
inductive MainPhase where
  | selecting
  | joining (exit : Exit)
  | closing (exit : Exit) (result : Except Failure Unit)
  | exited (exit : Exit) (result : Except Failure Unit)

/-- Which branch of the `select!` was taken. -/
def MainPhase.exit? : MainPhase → Option Exit
  | .selecting => none
  | .joining exit | .closing exit _ | .exited exit _ => some exit

/-- What `main` returns, once it has joined its tasks. -/
def MainPhase.result? : MainPhase → Option (Except Failure Unit)
  | .selecting | .joining _ => none
  | .closing _ result | .exited _ result => some result

/-- Where `serve_bound` is: in its loop, behind it, at its end. -/
inductive RpcPhase where
  | accepting
  | draining
  | ended (joined : Joined)

/-- The tasks. Connections are told apart by numbers. -/
structure Tasks where
  main : MainPhase
  /-- the token has been cancelled -/
  cancelled : Bool
  /-- how the controller has ended, if it has -/
  controller : Option Joined
  rpc : RpcPhase
  /-- the permits left of the `connection_limit` -/
  permits : Nat
  /-- the connections whose task is running in the `JoinSet` -/
  serving : List Nat
  /-- the connections whose task has ended and was not joined yet -/
  finished : List Nat
  /-- the connections whose task was aborted with the `JoinSet` and has not stopped yet -/
  aborted : List Nat

namespace Tasks

/-- `main` has spawned its tasks. -/
def initial : Tasks where
  main := .selecting
  cancelled := false
  controller := none
  rpc := .accepting
  permits := maxConnections
  serving := []
  finished := []
  aborted := []

/-- One step of `main`, of the controller, of the server, or of the task of a connection. -/
inductive Step (c : Tasks) : Tasks → Prop where
  /-- the `shutdown_signal` branch -/
  | signalled {result} : c.main = .selecting →
      Step c { c with main := .joining (.signal result), cancelled := true }
  /-- the `controller_task` branch -/
  | controllerFirst {joined} : c.main = .selecting → c.controller = some joined →
      Step c { c with main := .joining (.controller joined), cancelled := true }
  /-- the `rpc_task` branch -/
  | rpcFirst {joined} : c.main = .selecting → c.rpc = .ended joined →
      Step c { c with main := .joining (.rpc joined), cancelled := true }
  /-- both tasks have ended -/
  | joined {exit controller rpc} : c.main = .joining exit → c.controller = some controller →
      c.rpc = .ended rpc →
      Step c { c with main := .closing exit (exit.primaryResult controller rpc) }
  | closed {exit result} : c.main = .closing exit result →
      Step c { c with main := .exited exit result }
  /-- `HostController::run` returns only where it finds the token cancelled -/
  | controllerStopped : c.controller = none → c.cancelled = true →
      Step c { c with controller := some (.returned (.ok ())) }
  | controllerPanicked {text} : c.controller = none →
      Step c { c with controller := some (.panicked text) }
  | accepted {connection permits} : c.rpc = .accepting → c.permits = permits + 1 →
      connection ∉ c.serving → connection ∉ c.finished →
      Step c { c with permits, serving := connection :: c.serving }
  /-- a connection beyond the limit is dropped -/
  | refused : c.rpc = .accepting → c.permits = 0 → Step c c
  /-- the permit of a connection goes with its task -/
  | finished {connection} : connection ∈ c.serving →
      Step c
        { c with
          permits := c.permits + 1
          serving := c.serving.erase connection
          finished := connection :: c.finished }
  /-- `join_next`, in the loop or behind it -/
  | joinedNext {connection} : connection ∈ c.finished →
      Step c { c with finished := c.finished.erase connection }
  /-- the `cancelled()` branch -/
  | drains : c.rpc = .accepting → c.cancelled = true → Step c { c with rpc := .draining }
  /-- every connection has been joined -/
  | rpcStopped : c.rpc = .draining → c.serving = [] → c.finished = [] →
      Step c { c with rpc := .ended (.returned (.ok ())) }
  /-- `accept` fails; the `JoinSet` goes -/
  | acceptFailed {error} : c.rpc = .accepting →
      Step c
        { c with
          rpc := .ended (.returned (.error ⟨"accept local RPC connection", some error⟩))
          serving := []
          finished := []
          aborted := c.serving }
  | rpcPanicked {text} : (∀ joined, c.rpc ≠ .ended joined) →
      Step c
        { c with
          rpc := .ended (.panicked text)
          serving := []
          finished := []
          aborted := c.serving }
  /-- an aborted task has come to an await and stops -/
  | stopped {connection} : connection ∈ c.aborted →
      Step c { c with aborted := c.aborted.erase connection }

/-- The states of the tasks. -/
def Reachable (c : Tasks) : Prop :=
  Relation.ReflTransGen Step initial c

end Tasks

end ControlPlane.Process
