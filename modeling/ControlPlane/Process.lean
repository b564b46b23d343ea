import ControlPlane.Rpc.Socket

/-!
# The process of a daemon

`main` as far as other processes can tell: it takes the lock of its database, opens the databases,
takes the socket path and serves. Any number of processes run beside each other. The lock of a
database is an advisory one, on a file beside it; the system gives it up when the process ends.
-/

namespace ControlPlane.Process

open Interaction Rpc

/-! ## Calls -/

/-- The path of a database as it is displayed, and its parent unless that is empty. -/
structure DatabasePath where
  display : String
  parent : Option String
  deriving DecidableEq, Repr

/-- `Config`, as far as other processes can tell. -/
structure Config where
  socketPath : SocketPath
  databasePath : DatabasePath
  fakeProviderDatabasePath : DatabasePath
  socketMode : UInt32

/-- The outcome of `File::try_lock`. -/
inductive TryLock where
  | locked
  | wouldBlock
  | failed (error : FileError)
  deriving DecidableEq, Repr

/-- The calls of a process on its databases, and those on its socket. `finish` stands for the rest
    of `main` once the RPC task has ended: the controller is joined and the pools are closed. -/
inductive Call where
  | createDirAll (parent : String)
  | openLock (path : String)
  | tryLock (path : String)
  | openPool (path : DatabasePath)
  | migrate (migrations : String)
  | seedCatalog
  | socket (call : Rpc.Call)
  | finish (result : Except Failure Unit)

/-- What a call answers. -/
abbrev Answer : Call → Type
  | .createDirAll _ => Except FileError Unit
  | .openLock _ => Except FileError Unit
  | .tryLock _ => TryLock
  | .openPool _ => Except FileError Unit
  | .migrate _ => Except FileError Unit
  | .seedCatalog => Except FileError Unit
  | .socket call => Rpc.Answer call
  | .finish _ => Except Failure Unit

/-- A function of the process. -/
abbrev Task (α : Type) := Program Call Answer α

/-- Make a call and look at its answer. -/
def ask (call : Call) : Task (Answer call) :=
  Program.perform call

/-- Make a call that must succeed. -/
def attempt (context : String) (call : Task (Except FileError Unit)) :
    Task (Except Failure Unit) := do
  match ← call with
  | .error error => return .error ⟨context, some error⟩
  | .ok () => return .ok ()

/-- One function after another, up to the first failure. -/
def andThen {α : Type} (first : Task (Except Failure Unit))
    (second : Task (Except Failure α)) : Task (Except Failure α) := do
  match ← first with
  | .error failure => return .error failure
  | .ok () => second

/-! ## The functions -/

/-- `database_lock_path`. -/
def databaseLockPath (path : DatabasePath) : String :=
  path.display ++ ".lock"

/-- `acquire_database_ownership`. -/
def acquireDatabaseOwnership (path : DatabasePath) : Task (Except Failure Unit) := do
  match ← ask (.openLock (databaseLockPath path)) with
  | .error error =>
    return .error ⟨"open database ownership lock " ++ databaseLockPath path, some error⟩
  | .ok () =>
    match ← ask (.tryLock (databaseLockPath path)) with
    | .locked => return .ok ()
    | .wouldBlock =>
      return .error ⟨"Control Plane database " ++ path.display ++
        " is already owned by another process", none⟩
    | .failed error =>
      return .error ⟨"lock Control Plane database " ++ path.display, some error⟩

/-- The parent of a database is created, unless it is empty. -/
def createParent (what : String) (path : DatabasePath) : Task (Except Failure Unit) :=
  match path.parent with
  | none => return .ok ()
  | some parent => attempt ("create " ++ what ++ " directory " ++ parent)
      (ask (.createDirAll parent))

/-- `Storage::connect`. The lock is kept in the `Storage`. -/
def storageConnect (path : DatabasePath) : Task (Except Failure Unit) :=
  andThen (createParent "database" path) <|
  andThen (acquireDatabaseOwnership path) <|
  andThen (attempt ("open Control Plane database " ++ path.display) (ask (.openPool path))) <|
  attempt "apply Control Plane database migrations" (ask (.migrate "control-plane"))

/-- `FakeProvider::connect`. -/
def fakeProviderConnect (path : DatabasePath) : Task (Except Failure Unit) :=
  andThen (createParent "fake provider" path) <|
  andThen (attempt ("open fake provider database " ++ path.display) (ask (.openPool path))) <|
  andThen (attempt "apply fake provider database migrations" (ask (.migrate "fake-provider"))) <|
  attempt "seed fake provider plan catalog" (ask .seedCatalog)

/-- `main` up to where it spawns its tasks. -/
def startUp (config : Config) : Task (Except Failure SocketPathGuard) :=
  andThen (storageConnect config.databasePath) <|
  andThen (fakeProviderConnect config.fakeProviderDatabasePath) <|
  (Rpc.bind config.socketPath config.socketMode).within Call.socket

/-- `main`. Of its two tasks only the RPC task uses the socket, and `main` returns after it has
    ended, so its calls stand in line. -/
def main (config : Config) : Task (Except Failure Unit) := do
  match ← startUp config with
  | .error failure => return .error failure
  | .ok socketGuard =>
    let result ← (Rpc.serve socketGuard).within Call.socket
    ask (.finish result)

/-! ## What the calls do -/

/-- Who has locked each lock file, and the socket path. -/
structure World (Party : Type) where
  owner : String → Option Party
  socket : Rpc.World Party

variable {Party : Type} [DecidableEq Party]

/-- Nobody has locked anything, and nobody listens. -/
def World.initial (existing : Option (Bool × SocketIdentity)) : World Party :=
  ⟨fun _ => none, Rpc.World.initial existing⟩

/-- A call, done and answered. Only a lock that nobody has is granted. -/
def World.exec (party : Party) (world : World Party) :
    (call : Call) → Answer call → World Party → Prop
  | .tryLock path, .locked, world' => world.owner path = none ∧
      world' = { world with owner := Function.update world.owner path (some party) }
  | .tryLock path, .wouldBlock, world' => (world.owner path).isSome ∧ world' = world
  | .tryLock _, .failed _, world' => world' = world
  | .socket call, answer, world' =>
    ∃ socket, world.socket.exec party call answer socket ∧ world' = { world with socket }
  | .createDirAll _, _, world' => world' = world
  | .openLock _, _, world' => world' = world
  | .openPool _, _, world' => world' = world
  | .migrate _, _, world' => world' = world
  | .seedCatalog, _, world' => world' = world
  | .finish _, _, world' => world' = world

/-- The process has ended: its locks are free, its listener is closed. -/
def World.ended (world : World Party) (party : Party) : World Party where
  owner path := if world.owner path = some party then none else world.owner path
  socket := world.socket.closed party

/-- Any number of processes on one socket path. -/
def processes : Parties Party Call Answer (World Party) where
  exec := World.exec
  interfere world world' := ∃ socket, Rpc.daemons.interfere world.socket socket ∧
    world' = { world with socket }
  stop party world world' := world' = world.ended party

/-- A state of the processes. -/
abbrev Processes (Party : Type) :=
  Parties.State Party Call Answer (World Party) (Except Failure Unit)

/-- The states of the processes that are reached from the file at the path, whichever processes
    start, crash and end, and whenever. -/
abbrev Reachable (config : Party → Config) (existing : Option (Bool × SocketIdentity))
    (c : Processes Party) : Prop :=
  processes.Reach (fun party => main (config party)) Parties.anyMove
    (.idle (World.initial existing)) c

end ControlPlane.Process
