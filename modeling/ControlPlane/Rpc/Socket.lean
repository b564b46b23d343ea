import ControlPlane.Interaction.Parties

/-!
# The RPC socket

How a daemon takes the socket path and gives it up again (`rpc.rs`): `bind` with the inspection,
the probe and the removal of a stale socket before it, and the guard that removes the path when
the server stops. Each function is a program over its file-system calls. All daemons use one
path.
-/

namespace ControlPlane.Rpc

open Interaction

/-! ## Files and errors -/

/-- `SocketIdentity`. -/
structure SocketIdentity where
  device : UInt64
  inode : UInt64
  deriving DecidableEq, Repr

/-- What `symlink_metadata` tells about the file at the path. `file` numbers the files there have
    been, since an inode number is used again once its file is gone; no function of the source
    reads it. -/
structure Metadata where
  isSocket : Bool
  identity : SocketIdentity
  file : Nat
  deriving DecidableEq, Repr

/-- The `std::io::ErrorKind`s the source tells apart. -/
inductive ErrorKind where
  | notFound
  | connectionRefused
  | other
  deriving DecidableEq, Repr

/-- `std::io::Error`. -/
structure FileError where
  kind : ErrorKind
  text : String
  deriving DecidableEq, Repr

/-- `anyhow::Error`: a message, and the error it was put on. -/
structure Failure where
  context : String
  cause : Option FileError := none
  deriving DecidableEq, Repr

/-- The socket path as it is displayed, and its parent unless that is empty. -/
structure SocketPath where
  display : String
  parent : Option String

/-- The outcome of the timed `UnixStream::connect`. -/
inductive Probe where
  | connected
  | elapsed
  | failed (error : FileError)
  deriving DecidableEq, Repr

/-! ## Calls -/

/-- The calls a daemon makes on its socket. `serveBound` is the whole of `serve_bound` up to its
    end, `dropListener` closes the listener. -/
inductive Call where
  | createDirAll (parent : String)
  | symlinkMetadata
  | connect
  | removeFile
  | bind
  | setPermissions (mode : UInt32)
  | serveBound
  | dropListener
  deriving DecidableEq, Repr

/-- What a call answers. -/
abbrev Answer : Call → Type
  | .createDirAll _ => Except FileError Unit
  | .symlinkMetadata => Except FileError Metadata
  | .connect => Probe
  | .removeFile => Except FileError Unit
  | .bind => Except FileError Unit
  | .setPermissions _ => Except FileError Unit
  | .serveBound => Except Failure Unit
  | .dropListener => Unit

/-- A function of `rpc.rs`. -/
abbrev Task (α : Type) := Program Call Answer α

/-- Make a call and look at its answer. -/
def ask (call : Call) : Task (Answer call) :=
  Program.perform call

/-! ## The functions of `rpc.rs` -/

/-- `socket_identity`. -/
def socketIdentity (path : SocketPath) : Task (Except Failure SocketIdentity) := do
  match ← ask .symlinkMetadata with
  | .error error => return .error ⟨"inspect local RPC socket " ++ path.display, some error⟩
  | .ok metadata =>
    if !metadata.isSocket then
      return .error ⟨"path " ++ path.display ++ " is not a Unix socket", none⟩
    else
      return .ok metadata.identity

/-- `remove_socket_if_owned`. -/
def removeSocketIfOwned (path : SocketPath) (expected : SocketIdentity) :
    Task (Except Failure Unit) := do
  match ← ask .symlinkMetadata with
  | .error error =>
    if error.kind = .notFound then
      return .ok ()
    else
      return .error ⟨"reinspect stale local RPC socket " ++ path.display, some error⟩
  | .ok metadata =>
    if !metadata.isSocket || metadata.identity != expected then
      return .error ⟨"local RPC socket " ++ path.display ++
        " changed while it was being probed; refusing to remove it", none⟩
    else
      match ← ask .removeFile with
      | .error error =>
        return .error ⟨"remove stale local RPC socket " ++ path.display, some error⟩
      | .ok () => return .ok ()

/-- `prepare_socket_path` below the creation of the parent directory. -/
def inspectSocketPath (path : SocketPath) : Task (Except Failure Unit) := do
  match ← ask .symlinkMetadata with
  | .error error =>
    if error.kind = .notFound then
      return .ok ()
    else
      return .error ⟨"inspect local RPC socket " ++ path.display, some error⟩
  | .ok metadata =>
    if !metadata.isSocket then
      return .error ⟨"refusing to replace non-socket path " ++ path.display, none⟩
    else
      match ← ask .connect with
      | .connected =>
        return .error ⟨"local RPC socket " ++ path.display ++
          " is already served by another process", none⟩
      | .elapsed =>
        return .error ⟨"timed out while probing existing local RPC socket " ++ path.display ++
          "; refusing to remove it", none⟩
      | .failed error =>
        match error.kind with
        | .connectionRefused => removeSocketIfOwned path metadata.identity
        | .notFound => return .ok ()
        | .other =>
          return .error ⟨"probe existing local RPC socket " ++ path.display ++
            "; refusing to remove it", some error⟩

/-- `prepare_socket_path`. -/
def prepareSocketPath (path : SocketPath) : Task (Except Failure Unit) := do
  match path.parent with
  | none => inspectSocketPath path
  | some parent =>
    match ← ask (.createDirAll parent) with
    | .error error => return .error ⟨"create socket directory " ++ parent, some error⟩
    | .ok () => inspectSocketPath path

/-- `SocketPathGuard`. -/
structure SocketPathGuard where
  path : SocketPath
  identity : SocketIdentity

/-- `SocketPathGuard::new`. -/
def SocketPathGuard.new (path : SocketPath) : Task (Except Failure SocketPathGuard) := do
  match ← socketIdentity path with
  | .error error => return .error error
  | .ok identity => return .ok ⟨path, identity⟩

/-- `SocketPathGuard::drop`. -/
def SocketPathGuard.drop (socketGuard : SocketPathGuard) : Task Unit := do
  match ← socketIdentity socketGuard.path with
  | .error _ => return ()
  | .ok identity =>
    if identity != socketGuard.identity then
      return ()
    else
      -- any error of the removal is at most logged
      let _ ← ask .removeFile
      return ()

/-- What `bind` does with the listener it has bound. -/
def guardSocket (path : SocketPath) (socketMode : UInt32) :
    Task (Except Failure SocketPathGuard) := do
  match ← SocketPathGuard.new path with
  | .error error =>
    ask .dropListener
    return .error error
  | .ok socketGuard =>
    match ← ask (.setPermissions socketMode) with
    | .error error =>
      -- the locals go in the reverse of their order
      socketGuard.drop
      ask .dropListener
      return .error ⟨"set mode on local RPC socket " ++ path.display, some error⟩
    | .ok () => return .ok socketGuard

/-- `bind`. The listener of the `BoundRpcSocket` is the daemon's. -/
def bind (path : SocketPath) (socketMode : UInt32) : Task (Except Failure SocketPathGuard) := do
  match ← prepareSocketPath path with
  | .error error => return .error error
  | .ok () =>
    match ← ask .bind with
    | .error error => return .error ⟨"bind local RPC socket " ++ path.display, some error⟩
    | .ok () => guardSocket path socketMode

/-- `BoundRpcSocket::serve`. `serve_bound` owns the listener, and the guard is dropped whether it
    fails or not. -/
def serve (socketGuard : SocketPathGuard) : Task (Except Failure Unit) := do
  let result ← ask .serveBound
  ask .dropListener
  socketGuard.drop
  return result

/-- A daemon, as far as its socket goes. -/
def daemon (path : SocketPath) (socketMode : UInt32) : Task (Except Failure Unit) := do
  match ← bind path socketMode with
  | .error error => return .error error
  | .ok socketGuard => serve socketGuard

/-! ## What the calls do -/

/-- The file the path names, the socket each daemon listens on, and how many files there have
    been at the path. -/
structure World (Party : Type) where
  file : Option Metadata
  listener : Party → Option Metadata
  files : Nat

variable {Party : Type}

/-- Some file, or none, is at the path and nobody listens. -/
def World.initial (existing : Option (Bool × SocketIdentity)) : World Party where
  file := existing.map fun (isSocket, identity) => ⟨isSocket, identity, 0⟩
  listener := fun _ => none
  files := 1

/-- The outcomes of a probe. It may take too long whoever listens. -/
def World.probed (world : World Party) : Probe → Prop
  | .connected => ∃ file party, world.file = some file ∧ world.listener party = some file
  | .elapsed => True
  | .failed error =>
    match error.kind with
    | .notFound => world.file = none
    | .connectionRefused =>
      ∃ file, world.file = some file ∧ ∀ party, world.listener party ≠ some file
    | .other => True

variable [DecidableEq Party]

/-- The process of a daemon is gone, or has closed its listener. -/
def World.closed (world : World Party) (party : Party) : World Party :=
  { world with listener := Function.update world.listener party none }

/-- A daemon has bound a new socket. -/
def World.bound (world : World Party) (party : Party) (identity : SocketIdentity) : World Party :=
  let socket : Metadata := ⟨true, identity, world.files⟩
  { file := some socket
    listener := Function.update world.listener party (some socket)
    files := world.files + 1 }

/-- A file that is no socket is put at the path. -/
def World.placed (world : World Party) (identity : SocketIdentity) : World Party :=
  { world with file := some ⟨false, identity, world.files⟩, files := world.files + 1 }

/-- A call, done and answered. A call may fail for reasons of its own. A socket gets an inode
    number of no socket that is still open. -/
def World.exec (party : Party) (world : World Party) :
    (call : Call) → Answer call → World Party → Prop
  | .symlinkMetadata, .ok metadata, world' => world.file = some metadata ∧ world' = world
  | .symlinkMetadata, .error error, world' =>
    (error.kind = .notFound → world.file = none) ∧ world' = world
  | .connect, probe, world' => world.probed probe ∧ world' = world
  | .removeFile, .ok (), world' => world.file.isSome ∧ world' = { world with file := none }
  | .removeFile, .error error, world' =>
    (error.kind = .notFound → world.file = none) ∧ world' = world
  | .bind, .ok (), world' =>
    world.file = none ∧ ∃ identity,
      (∀ other socket, world.listener other = some socket → socket.identity ≠ identity) ∧
      world' = world.bound party identity
  | .bind, .error _, world' => world' = world
  | .dropListener, (), world' => world' = world.closed party
  | .createDirAll _, _, world' => world' = world
  | .setPermissions _, _, world' => world' = world
  | .serveBound, _, world' => world' = world

/-- Any number of daemons on one path. -/
def daemons : Parties Party Call Answer (World Party) where
  exec := World.exec
  interfere world world' := world.file = none ∧ ∃ identity, world' = world.placed identity
  stop party world world' := world' = world.closed party

/-- A state of the daemons. -/
abbrev Daemons (Party : Type) :=
  Parties.State Party Call Answer (World Party) (Except Failure Unit)

/-- The states of the daemons that are reached along allowed steps from the file at the path. -/
abbrev Reachable (path : SocketPath) (socketMode : Party → UInt32)
    (allowed : Daemons Party → Move Party Call → Prop)
    (existing : Option (Bool × SocketIdentity)) (c : Daemons Party) : Prop :=
  daemons.Reach (fun party => daemon path (socketMode party)) allowed
    (.idle (World.initial existing)) c

end ControlPlane.Rpc
