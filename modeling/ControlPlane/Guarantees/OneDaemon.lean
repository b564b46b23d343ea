import ControlPlane.Process.Walk
import ControlPlane.Guarantees.LiveSocket

/-!
# One daemon at a time

At most one daemon of an installation serves, the path leads to it, and no file is removed from
the path that someone else uses. What a process leaves, however it ends, does not keep the next
one from serving.
-/

namespace ControlPlane.Process

open Interaction Rpc

variable {Party : Type} [DecidableEq Party]

/-! ## One daemon serves -/

/-- The processes of one installation use one database and one socket path. -/
structure OneInstallation (config : Party → Config) : Prop where
  database : ∀ party other, (config party).databasePath = (config other).databasePath
  socket : ∀ party other, (config party).socketPath = (config other).socketPath

/-- The party is in `serve_bound`. -/
def Serving (c : Processes Party) (party : Party) : Prop :=
  ∃ next, c.task party = some (.call (.socket .serveBound) next)

/-- The party has the database to itself, the path leads to it, and nobody else listens. -/
structure Alone (config : Party → Config) (c : Processes Party) (party : Party) : Prop where
  owner : c.world.owner (databaseLockPath (config party).databasePath) = some party
  listening : c.world.Listening party
  others : ∀ other, other ≠ party → c.world.socket.listener other = none ∧ ¬Serving c other

/-- A step takes away no file but a socket, and that by the removal of a process while nobody else
    listens. -/
def Spares (c : Processes Party) (move : Move Party Call) (c' : Processes Party) : Prop :=
  ∀ file, c.world.socket.file = some file → c'.world.socket.file ≠ some file →
    file.isSocket = true ∧ ∃ party, move = .perform party (.socket .removeFile) ∧
      ∀ other, other ≠ party → c.world.socket.listener other = none

section Installation

variable {config : Party → Config} {lock : String} {existing : Option (Bool × SocketIdentity)}
  {c c' : Processes Party} {move : Move Party Call} {party : Party}

/-- The processes keep the accord. -/
theorem kept (hlock : ∀ party, databaseLockPath (config party).databasePath = lock) :
    (accord lock).Kept processes (fun party => main (config party)) (fun _ _ _ _ => True)
      (fun _ _ _ => True) where
  perform _ _ _ _ _ _ hinv hissue _ hexec := keeps_exec hinv hissue hexec
  interfere world world' hinv hplaced := by
    obtain ⟨socket, ⟨hfree, identity, rfl⟩, rfl⟩ := hplaced
    refine ⟨hinv, fun party howner => ⟨howner, rfl, fun file hfile => ?_⟩⟩
    rw [hfree] at hfile
    cases hfile
  stop party world world' hinv hstop := by
    cases hstop
    refine ⟨fun other socket hsome => ?_, fun other hother howner => ⟨?_, ?_, fun _ => id⟩⟩
    · by_cases hother : other = party
      · rw [hother] at hsome
        simp [World.ended, Rpc.World.closed] at hsome
      · have howner := hinv other socket
          (by simpa [World.ended, Rpc.World.closed, hother] using hsome)
        simpa [World.ended, howner] using hother
    · simpa [World.ended, howner] using hother
    · simp [World.ended, Rpc.World.closed, hother]
  main party world _ := by
    have walk : Walk lock party False ((accord lock).discipline processes party) :=
      ⟨fun h => ⟨h, False.elim⟩, fun h => h, fun h => ⟨h, False.elim⟩, fun h => h⟩
    exact (walk.main (hlock party) False.elim).weaken fun _ _ _ _ _ => trivial

theorem sound (hlock : ∀ party, databaseLockPath (config party).databasePath = lock)
    (h : Reachable config existing c) :
    Accord.Sound (accord lock) processes (fun _ _ _ _ => True) c := by
  refine Accord.Sound.reach (kept hlock) ?_ (h.permitted fun _ _ _ => trivial)
  intro party socket hsome
  cases hsome

/-- In every run of any number of processes of one installation, the daemon that serves is alone,
    and no process removes the path while it names a socket someone else listens on, or a file
    that is no socket. -/
theorem one_daemon_at_a_time (hinstallation : OneInstallation config)
    (h : Reachable config existing c) :
    (∀ party, Serving c party → Alone config c party) ∧
      ∀ move c', processes.Step (fun party => main (config party)) c move c' →
        Spares c move c' := by
  have hlock : ∀ party other, databaseLockPath (config other).databasePath =
      databaseLockPath (config party).databasePath :=
    fun party other => congrArg databaseLockPath (hinstallation.database other party)
  constructor
  · intro party hserving
    have hsound := sound (hlock party) h
    have howns : ∀ other, Serving c other →
        c.world.owner (databaseLockPath (config party).databasePath) = some other := by
      rintro other ⟨next, htask⟩
      exact (hsound.issue htask).1
    have howner := howns party hserving
    obtain ⟨next, htask⟩ := hserving
    refine ⟨howner, (hsound.issue htask).2.2 rfl, fun other hother => ⟨?_, fun hother' => ?_⟩⟩
    · exact World.Exclusive.alone hsound.inv howner hother
    · have hsome := howns other hother'
      rw [howner] at hsome
      exact hother (Option.some_inj.mp hsome).symm
  · intro move c' hstep file hfile hgone
    cases hstep with
    | interfere hplaced =>
      obtain ⟨socket, ⟨hfree, -⟩, -⟩ := hplaced
      rw [hfree] at hfile
      cases hfile
    | start => exact absurd hfile hgone
    | @perform party call next answer world' htask hexec =>
      have hsound := sound (hlock party) h
      cases call with
      | socket call =>
        obtain ⟨socket, hsocket, rfl⟩ := hexec
        have hcall : call = .removeFile := removes_of_exec hsocket hfile hgone
        subst hcall
        obtain ⟨howner, hsockets, -⟩ := hsound.issue htask
        exact ⟨hsockets rfl file hfile, party, rfl, fun other hother =>
          World.Exclusive.alone hsound.inv howner hother⟩
      | tryLock path =>
        cases answer with
        | locked =>
          obtain ⟨-, rfl⟩ := hexec
          exact absurd hfile hgone
        | wouldBlock => exact absurd (hexec.2 ▸ hfile) hgone
        | failed error => exact absurd (hexec ▸ hfile) hgone
      | createDirAll | openLock | openPool | migrate | seedCatalog | finish =>
        exact absurd (hexec ▸ hfile) hgone
    | stop _ hstop =>
      cases hstop
      exact absurd hfile hgone

end Installation

/-! ## A daemon is started again -/

section Restart

variable {config : Party → Config} {existing : Option (Bool × SocketIdentity)}
  {c c' : Processes Party} {party : Party} {world world' : World Party}

/-- Only its own locks are taken by a call of a party. -/
theorem owner_of_exec {call : Call} {answer : Answer call} {lock : String} {other : Party}
    (hexec : world.exec party call answer world') (howner : world'.owner lock = some other)
    (hother : other ≠ party) : world.owner lock = some other := by
  cases call with
  | tryLock path =>
    cases answer with
    | locked =>
      obtain ⟨-, rfl⟩ := hexec
      by_cases hlock : lock = path
      · rw [hlock] at howner
        simp only [Function.update_self, Option.some.injEq] at howner
        exact absurd howner.symm hother
      · simpa [Function.update_of_ne hlock] using howner
    | wouldBlock => exact hexec.2 ▸ howner
    | failed error => exact hexec ▸ howner
  | socket call =>
    obtain ⟨socket, -, rfl⟩ := hexec
    exact howner
  | createDirAll | openLock | openPool | migrate | seedCatalog | finish => exact hexec ▸ howner

theorem listener_of_call {call : Call} {answer : Answer call} {other : Party}
    (hexec : world.exec party call answer world') (hother : other ≠ party) :
    world'.socket.listener other = world.socket.listener other := by
  cases call with
  | tryLock path =>
    cases answer with
    | locked =>
      obtain ⟨-, rfl⟩ := hexec
      rfl
    | wouldBlock => rw [hexec.2]
    | failed error => rw [hexec]
  | socket call =>
    obtain ⟨socket, hsocket, rfl⟩ := hexec
    exact listener_of_exec hsocket hother
  | createDirAll | openLock | openPool | migrate | seedCatalog | finish => rw [hexec]

/-- Only a process that runs has a lock or listens. -/
def Tidy (c : Processes Party) : Prop :=
  ∀ party, c.task party = none →
    (∀ lock, c.world.owner lock ≠ some party) ∧ c.world.socket.listener party = none

theorem tidy (h : Reachable config existing c) : Tidy c := by
  refine h.invariant Tidy (fun party _ => ⟨fun _ h => (by cases h), rfl⟩) ?_
  intro first move second hstep _ htidy other hother
  cases hstep with
  | interfere hplaced =>
    obtain ⟨socket, ⟨-, identity, rfl⟩, rfl⟩ := hplaced
    exact htidy other hother
  | start party =>
    by_cases hsame : other = party
    · rw [hsame] at hother
      simp at hother
    · exact htidy other (by simpa [Function.update_of_ne hsame] using hother)
  | @perform party call next answer world' htask hexec =>
    by_cases hsame : other = party
    · rw [hsame] at hother
      simp at hother
    · obtain ⟨howner, hlistener⟩ :=
        htidy other (by simpa [Function.update_of_ne hsame] using hother)
      exact ⟨fun lock hsome => howner lock (owner_of_exec hexec hsome hsame),
        (listener_of_call hexec hsame).trans hlistener⟩
  | @stop party program world' htask hstop =>
    cases hstop
    by_cases hsame : other = party
    · refine ⟨fun lock hsome => ?_, ?_⟩
      · rw [hsame] at hsome
        simp only [World.ended] at hsome
        split at hsome
        · cases hsome
        · rename_i hnot
          exact hnot hsome
      · rw [hsame]
        exact Function.update_self ..
    · obtain ⟨howner, hlistener⟩ :=
        htidy other (by simpa [Function.update_of_ne hsame] using hother)
      refine ⟨fun lock hsome => ?_, ?_⟩
      · simp only [World.ended] at hsome
        split at hsome
        · cases hsome
        · exact howner lock hsome
      · exact (Function.update_of_ne hsame _ _).trans hlistener

/-- A call of a calm run. -/
def Calm (party : Party) (world : World Party) (call : Call) (answer : Answer call)
    (world' : World Party) : Prop :=
  world.exec party call answer world' ∧ Unfailing world call answer

/-- Every call on the socket can be answered in a calm run. -/
theorem calm_socket (party : Party) (world : Rpc.World Party) (call : Rpc.Call) :
    ∃ answer world', world.exec party call answer world' ∧
      Unfailing.socket world call answer := by
  cases call with
  | createDirAll parent => exact ⟨.ok (), world, rfl, rfl⟩
  | setPermissions mode => exact ⟨.ok (), world, rfl, rfl⟩
  | serveBound => exact ⟨.ok (), world, rfl, rfl⟩
  | dropListener => exact ⟨(), world.closed party, rfl, trivial⟩
  | symlinkMetadata =>
    cases hfile : world.file with
    | none =>
      refine ⟨.error ⟨.notFound, "No such file or directory"⟩, world, ⟨fun _ => hfile, rfl⟩, ?_⟩
      rintro error herror
      cases herror
      rfl
    | some file => exact ⟨.ok file, world, ⟨hfile, rfl⟩, fun _ h => by cases h⟩
  | removeFile =>
    cases hfile : world.file with
    | none =>
      refine ⟨.error ⟨.notFound, "No such file or directory"⟩, world, ⟨fun _ => hfile, rfl⟩, ?_⟩
      rintro error herror
      cases herror
      rfl
    | some file =>
      exact ⟨.ok (), { world with file := none }, ⟨by rw [hfile]; rfl, rfl⟩, fun _ h => by cases h⟩
  | connect =>
    cases hfile : world.file with
    | none =>
      refine ⟨.failed ⟨.notFound, "No such file or directory"⟩, world, ⟨hfile, rfl⟩,
        fun h => (by cases h), ?_⟩
      rintro error herror
      cases herror
      exact fun h => by cases h
    | some file =>
      by_cases hlistener : ∃ other, world.listener other = some file
      · obtain ⟨other, hother⟩ := hlistener
        exact ⟨.connected, world, ⟨⟨file, other, hfile, hother⟩, rfl⟩, fun h => (by cases h),
          fun _ h => (by cases h)⟩
      · refine ⟨.failed ⟨.connectionRefused, "Connection refused"⟩, world,
          ⟨⟨file, hfile, fun other hother => hlistener ⟨other, hother⟩⟩, rfl⟩,
          fun h => (by cases h), ?_⟩
        rintro error herror
        cases herror
        exact fun h => by cases h
  | bind =>
    by_cases hfree : world.file = none ∧ ∀ other, world.listener other = none
    · refine ⟨.ok (), world.bound party ⟨0, 0⟩, ⟨hfree.1, ⟨0, 0⟩, ?_, rfl⟩, fun _ h => by cases h⟩
      intro other socket hsome
      rw [hfree.2 other] at hsome
      cases hsome
    · refine ⟨.error ⟨.other, "Address already in use"⟩, world, rfl, fun error _ => ?_⟩
      by_cases hfile : world.file = none
      · right
        by_contra hnone
        refine hfree ⟨hfile, fun other => ?_⟩
        cases hlistener : world.listener other with
        | none => rfl
        | some socket => exact absurd ⟨other, by rw [hlistener]; rfl⟩ hnone
      · left
        exact Option.isSome_iff_ne_none.mpr hfile

/-- Every call can be answered in a calm run. -/
theorem calm_total (party : Party) (world : World Party) (call : Call) :
    ∃ answer world', Calm party world call answer world' := by
  cases call with
  | createDirAll | openLock | openPool | migrate | seedCatalog =>
    exact ⟨.ok (), world, rfl, rfl⟩
  | finish result => exact ⟨result, world, rfl, rfl⟩
  | socket call =>
    obtain ⟨answer, socket, hexec, hunfailing⟩ := calm_socket party world.socket call
    exact ⟨answer, { world with socket }, ⟨socket, hexec, rfl⟩, hunfailing⟩
  | tryLock path =>
    cases howner : world.owner path with
    | none => exact ⟨.locked, _, ⟨howner, rfl⟩, fun _ h => by cases h⟩
    | some other =>
      exact ⟨.wouldBlock, world, ⟨by rw [howner]; rfl, rfl⟩, fun _ h => by cases h⟩

/-- The discipline of a process that runs alone. -/
def aloneDiscipline (lock : String) (party : Party) : Discipline Call Answer (World Party) where
  exec := Calm party
  inv := World.Exclusive lock
  rely world world' := world' = world
  rely_refl _ := rfl
  rely_trans h h' := h'.trans h
  issue _ := Issues lock party

theorem walk_alone (lock : String) (party : Party) :
    Walk lock party True (aloneDiscipline lock party) where
  exec h := ⟨h.1, fun _ => h.2⟩
  inv h := h
  rely h := ⟨by cases h; exact World.Rely.refl _ _ _, fun _ => h⟩
  issue h := h

/-- Nobody runs, and no file that is not a socket is at the path. -/
structure Resting (c : Processes Party) : Prop where
  task : ∀ party, c.task party = none
  file : ∀ file, c.world.socket.file = some file → file.isSocket = true

variable (lock : String)

theorem Resting.exclusive (hresting : Resting c) (h : Reachable config existing c) :
    c.world.Exclusive lock := by
  intro party socket hsome
  rw [(tidy h party (hresting.task party)).2] at hsome
  cases hsome

theorem Resting.clear (hresting : Resting c) (h : Reachable config existing c) (party : Party) :
    Clear lock party True c.world := by
  refine fun _ => ⟨?_, (tidy h party (hresting.task party)).2, hresting.file⟩
  cases howner : c.world.owner lock with
  | none => rfl
  | some other => exact absurd howner ((tidy h other (hresting.task other)).1 lock)

/-- What a calm run of a safe program comes to. -/
theorem calm_runs {α : Type} {program : Task α} {ends : α → World Party → Prop} {value : α}
    {log : Log Call Answer} (hexclusive : world.Exclusive lock)
    (hsafe : Safe (aloneDiscipline lock party) (fun value _ last => ends value last) program []
      world)
    (hruns : Runs (Calm party) program world [] value world' log) : ends value world' :=
  Safe.runs hruns hsafe hexclusive fun _ _ _ _ _ hinv hissue hexec =>
    (keeps_exec hinv hissue hexec.1).1

/-- A process that is started where nobody runs can come to serve, before anyone else starts. -/
theorem Resting.serves (hresting : Resting c) (h : Reachable config existing c) (party : Party) :
    ∃ c', processes.Reach (fun party => main (config party)) Parties.anyMove c c' ∧
      Serving c' party ∧ ∀ other, other ≠ party → c'.task other = none := by
  obtain ⟨result, world', log, hruns⟩ := Runs.exists_of_total (calm_total party)
    (startUp (config party)) c.world []
  have hstarted := calm_runs _ (hresting.exclusive _ h)
    ((walk_alone _ party).startUp rfl (hresting.clear _ h party)) hruns
  obtain ⟨socketGuard, rfl⟩ := hstarted.2 trivial
  have hstart : processes.Reach (fun party => main (config party)) Parties.anyMove c _ :=
    Parties.Reach.step .refl (.start party (hresting.task party)) trivial
  have hreach := Parties.Reach.of_runs (hruns.mono fun hexec => hexec.1) hstart
  refine ⟨_, hreach, ⟨_, Function.update_self ..⟩, fun other hother => ?_⟩
  exact (Function.update_of_ne hother ..).trans (hresting.task other)

/-- Whatever processes did before and however they ended, what they left at the path and of their
    locks does not keep a daemon from serving: one that is started where nobody runs can come to
    serve, and if it is left alone and its calls do not fail for reasons of their own, it ends
    well and leaves the path free. -/
theorem restarted_daemon_serves (h : Reachable config existing c) (hresting : Resting c)
    (party : Party) :
    (∃ c', processes.Reach (fun party => main (config party)) Parties.anyMove c c' ∧
      Serving c' party) ∧
    ∀ result world' log, Runs (Calm party) (main (config party)) c.world [] result world' log →
      result = .ok () ∧ world'.socket.file = none := by
  obtain ⟨c', hreach, hserving, -⟩ := hresting.serves h party
  refine ⟨⟨c', hreach, hserving⟩, fun result world' log hruns => ?_⟩
  exact calm_runs _ (hresting.exclusive _ h)
    ((walk_alone _ party).main rfl (hresting.clear _ h party)) hruns trivial

end Restart

/-! ## Two processes -/

/-- The configuration of two processes. -/
def sharedConfig : Config where
  socketPath := sharedPath
  databasePath := ⟨"/var/lib/control-plane.db", some "/var/lib"⟩
  fakeProviderDatabasePath := ⟨"/var/lib/fake-provider.db", some "/var/lib"⟩
  socketMode := 0o660

/-- A stale socket is at the path, and nobody runs. -/
def staleProcesses : Processes Bool :=
  .idle (World.initial (some (true, ⟨1, 7⟩)))

theorem resting_staleProcesses : Resting staleProcesses := by
  refine ⟨fun _ => rfl, fun file hfile => ?_⟩
  cases hfile
  rfl

/-- One of them comes to serve. The other one is started, finds the database owned and gives up,
    and the first one is alone. -/
theorem one_daemon_of_two : ∃ c : Processes Bool,
    Reachable (fun _ => sharedConfig) (some (true, ⟨1, 7⟩)) c ∧ Serving c true ∧
    c.task false = some (.done (.error ⟨"Control Plane database /var/lib/control-plane.db" ++
      " is already owned by another process", none⟩)) ∧
    Alone (fun _ => sharedConfig) c true := by
  have hinstallation : OneInstallation fun _ : Bool => sharedConfig :=
    ⟨fun _ _ => rfl, fun _ _ => rfl⟩
  have hstale : Reachable (fun _ => sharedConfig) (some (true, ⟨1, 7⟩)) staleProcesses := .refl
  obtain ⟨served, h, hserving, hidle⟩ := resting_staleProcesses.serves hstale true
  have howner := ((one_daemon_at_a_time hinstallation h).1 true hserving).owner
  have h := h.step (.start false (hidle false (by decide))) trivial
  have h := h.perform false (.createDirAll "/var/lib") (.ok ()) rfl rfl trivial
  have h := h.perform false (.openLock "/var/lib/control-plane.db.lock") (.ok ()) rfl rfl trivial
  have h := h.perform false (.tryLock "/var/lib/control-plane.db.lock") .wouldBlock rfl
    ⟨Option.isSome_of_mem howner, rfl⟩ trivial
  exact ⟨_, h, hserving, rfl, (one_daemon_at_a_time hinstallation h).1 true hserving⟩

/-- The stale socket does not keep one of them from serving. -/
theorem served_in_spite_of_stale_socket :
    ∃ c, processes.Reach (fun _ => main sharedConfig) Parties.anyMove staleProcesses c ∧
      Serving c false :=
  (restarted_daemon_serves (show Reachable (fun _ => sharedConfig) _ staleProcesses from .refl)
    resting_staleProcesses false).1

end ControlPlane.Process
