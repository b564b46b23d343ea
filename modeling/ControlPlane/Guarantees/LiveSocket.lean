import ControlPlane.Rpc.Socket

/-!
# Whose socket a daemon removes

A daemon compares the file at the socket path with one it has found before, and then removes
whatever the path names. `Undisturbed` says that nothing came in between: the path still names the
file just compared, if it names any, and no two of the files compared shared an inode number.
Daemons that are undisturbed at each removal never remove a socket another one listens on, nor a
file that is no socket.
-/

namespace ControlPlane.Rpc

open Interaction Parties

variable {Party : Type}

/-! ## What a daemon has found -/

/-- The files a daemon has found at the path since it last bound a socket, the newest first. -/
def found : Log Call Answer → List Metadata
  | [] => []
  | ⟨.bind, .ok ()⟩ :: _ => []
  | ⟨.symlinkMetadata, .ok file⟩ :: log => file :: found log
  | _ :: log => found log

/-- A removal hits nothing but the file just found, and the files found differ in their inode
    numbers. Other calls are always undisturbed. -/
def Undisturbed (log : Log Call Answer) (world : World Party) : Call → Prop
  | .removeFile =>
    (∀ file, world.file = some file → (found log).head? = some file) ∧
      ∀ file ∈ found log, ∀ other ∈ found log, file.identity = other.identity → file = other
  | _ => True

/-- Removing the path is harmless to everyone but `party`, as long as it names `file`. -/
structure Harmless (party : Party) (file : Metadata) (world : World Party) : Prop where
  known : file.file < world.files
  deserted : world.file = some file → ∀ other, other ≠ party → world.listener other ≠ some file

/-- The path names no file that is not a socket, and no socket another daemon listens on. -/
def Removable (party : Party) (world : World Party) : Prop :=
  ∀ file, world.file = some file →
    file.isSocket = true ∧ ∀ other, other ≠ party → world.listener other ≠ some file

/-! ## What the daemons grant each other -/

/-- The files at the path and under the listeners have been counted, and every daemon listens on
    a socket of its own. -/
structure World.Invariant (world : World Party) : Prop where
  file : ∀ file, world.file = some file → file.file < world.files
  listener : ∀ party file, world.listener party = some file → file.file < world.files
  distinct : ∀ party other file, world.listener party = some file →
    world.listener other = some file → party = other

/-- What the others leave a daemon: its listener, and its socket at the path while it listens. A
    file that is gone does not come back, and a socket nobody listens on stays so. -/
structure World.Rely (party : Party) (world world' : World Party) : Prop where
  own : world'.listener party = world.listener party
  files : world.files ≤ world'.files
  gone : ∀ file, file.file < world.files → world'.file = some file → world.file = some file
  deaf : ∀ other file, file.file < world.files → world'.listener other = some file →
    world.listener other = some file
  kept : ∀ file, world.listener party = some file → world.file = some file →
    world'.file = some file

theorem World.Rely.refl (party : Party) (world : World Party) : world.Rely party world :=
  ⟨rfl, Nat.le_refl _, fun _ _ => id, fun _ _ _ => id, fun _ _ => id⟩

theorem World.Rely.trans {party : Party} {first second third : World Party}
    (h : first.Rely party second) (h' : second.Rely party third) : first.Rely party third where
  own := h'.own.trans h.own
  files := Nat.le_trans h.files h'.files
  gone file hknown hfile :=
    h.gone file hknown (h'.gone file (Nat.lt_of_lt_of_le hknown h.files) hfile)
  deaf other file hknown hlistener :=
    h.deaf other file hknown (h'.deaf other file (Nat.lt_of_lt_of_le hknown h.files) hlistener)
  kept file hlistener hfile :=
    h'.kept file (h.own.trans hlistener) (h.kept file hlistener hfile)

/-- A daemon makes every call but the removal as it likes. -/
def accord : Accord Party Call Answer (World Party) where
  inv := World.Invariant
  rely := World.Rely
  rely_refl := World.Rely.refl
  rely_trans := World.Rely.trans
  issue party log world call :=
    call = .removeFile → Undisturbed log world call → Removable party world

theorem Harmless.rely {party : Party} {file : Metadata} {world world' : World Party}
    (h : Harmless party file world) (hrely : world.Rely party world') :
    Harmless party file world' := by
  refine ⟨Nat.lt_of_lt_of_le h.known hrely.files, fun hfile other hother hlistener => ?_⟩
  have hbefore := hrely.gone file h.known hfile
  exact h.deserted hbefore other hother (hrely.deaf other file h.known hlistener)

/-- A file a daemon has found, with the inode number it compares, is harmless to remove. -/
def Recorded (party : Party) (identity : SocketIdentity) (log : Log Call Answer)
    (world : World Party) : Prop :=
  ∃ file ∈ found log, file.identity = identity ∧ Harmless party file world

theorem Recorded.rely {party : Party} {identity : SocketIdentity} {log : Log Call Answer}
    {world world' : World Party} (h : Recorded party identity log world)
    (hrely : world.Rely party world') : Recorded party identity log world' := by
  obtain ⟨file, hmem, hidentity, hharmless⟩ := h
  exact ⟨file, hmem, hidentity, hharmless.rely hrely⟩

section Accord

variable {party : Party} {world world' : World Party}

/-- A call that leaves the world as it is. -/
theorem World.Invariant.same (h : world.Invariant) (hsame : world' = world) :
    world'.Invariant ∧ ∀ other, other ≠ party → world.Rely other world' := by
  rw [hsame]
  exact ⟨h, fun other _ => World.Rely.refl other world⟩

/-- A file is put at the free path. -/
theorem World.Invariant.placed (h : world.Invariant) (identity : SocketIdentity)
    (hfree : world.file = none) :
    (world.placed identity).Invariant ∧ ∀ party, world.Rely party (world.placed identity) := by
  constructor
  · refine ⟨?_, fun party file hsome => Nat.lt_succ_of_lt (h.listener party file hsome),
      h.distinct⟩
    intro file hfile
    cases hfile
    exact Nat.lt_succ_self _
  · intro party
    refine ⟨rfl, Nat.le_succ _, ?_, fun _ _ _ => id, ?_⟩
    · intro file hknown hfile
      cases hfile
      exact absurd hknown (Nat.lt_irrefl _)
    · intro file _ hfile
      rw [hfree] at hfile
      cases hfile

/-- Removing what may be removed. -/
theorem World.Invariant.removed (h : world.Invariant) (hremovable : Removable party world) :
    ({ world with file := none } : World Party).Invariant ∧
      ∀ other, other ≠ party → world.Rely other { world with file := none } := by
  constructor
  · exact ⟨nofun, h.listener, h.distinct⟩
  · intro other hother
    refine ⟨rfl, Nat.le_refl _, nofun, fun _ _ _ => id, ?_⟩
    intro file hlistener hfile
    exact absurd hlistener ((hremovable file hfile).2 other hother)

/-- A daemon's own socket is harmless to remove, whether it still listens or not. -/
theorem World.Invariant.harmless {own : Metadata} (h : world.Invariant)
    (hlistener : world.listener party = some own) : Harmless party own world := by
  refine ⟨h.listener party own hlistener, fun _ other hother hsome => ?_⟩
  exact hother (h.distinct other party own hsome hlistener)

variable [DecidableEq Party]

/-- Closing a listener. -/
theorem World.Invariant.closed (h : world.Invariant) (party : Party) :
    (world.closed party).Invariant ∧
      ∀ other, other ≠ party → world.Rely other (world.closed party) := by
  have hlistener : ∀ {other file}, (world.closed party).listener other = some file →
      world.listener other = some file := by
    intro other file hsome
    by_cases hother : other = party
    · rw [hother] at hsome
      simp [World.closed] at hsome
    · simpa [World.closed, hother] using hsome
  constructor
  · exact ⟨h.file, fun _ _ hsome => h.listener _ _ (hlistener hsome),
      fun _ _ _ hsome hsome' => h.distinct _ _ _ (hlistener hsome) (hlistener hsome')⟩
  · intro other hother
    refine ⟨?_, Nat.le_refl _, fun _ _ => id, fun _ _ _ hsome => hlistener hsome, fun _ _ => id⟩
    simp [World.closed, hother]

/-- A socket that is bound is a new file. -/
theorem World.Invariant.bound (h : world.Invariant) (party : Party) (identity : SocketIdentity)
    (hfree : world.file = none) :
    (world.bound party identity).Invariant ∧
      ∀ other, other ≠ party → world.Rely other (world.bound party identity) := by
  have hlistener : ∀ {other file}, (world.bound party identity).listener other = some file →
      other = party ∧ file = ⟨true, identity, world.files⟩ ∨
        world.listener other = some file := by
    intro other file hsome
    by_cases hother : other = party
    · left
      rw [hother] at hsome
      simp only [World.bound, Function.update_self, Option.some.injEq] at hsome
      exact ⟨hother, hsome.symm⟩
    · right
      simpa [World.bound, hother] using hsome
  have hfresh : ∀ other, world.listener other ≠ some ⟨true, identity, world.files⟩ := by
    intro other hsome
    exact Nat.lt_irrefl _ (h.listener other _ hsome)
  constructor
  · refine ⟨?_, ?_, ?_⟩
    · intro file hfile
      cases hfile
      exact Nat.lt_succ_self _
    · intro other file hsome
      rcases hlistener hsome with ⟨-, rfl⟩ | hsome
      · exact Nat.lt_succ_self _
      · exact Nat.lt_succ_of_lt (h.listener other file hsome)
    · intro first second file hfirst hsecond
      rcases hlistener hfirst with ⟨rfl, rfl⟩ | hfirst
      · rcases hlistener hsecond with ⟨rfl, -⟩ | hsecond
        · rfl
        · exact absurd hsecond (hfresh second)
      · rcases hlistener hsecond with ⟨-, rfl⟩ | hsecond
        · exact absurd hfirst (hfresh first)
        · exact h.distinct first second file hfirst hsecond
  · intro other hother
    refine ⟨?_, Nat.le_succ _, ?_, ?_, ?_⟩
    · simp [World.bound, hother]
    · intro file hknown hfile
      cases hfile
      exact absurd hknown (Nat.lt_irrefl _)
    · intro third file hknown hsome
      rcases hlistener hsome with ⟨-, rfl⟩ | hsome
      · exact absurd hknown (Nat.lt_irrefl _)
      · exact hsome
    · intro file _ hfile
      rw [hfree] at hfile
      cases hfile

/-- What each call does to the others. -/
theorem keeps_exec {log : Log Call Answer} {call : Call} {answer : Answer call}
    (h : world.Invariant) (hissue : accord.issue party log world call)
    (hok : Undisturbed log world call) (hexec : world.exec party call answer world') :
    world'.Invariant ∧ ∀ other, other ≠ party → world.Rely other world' := by
  cases call with
  | removeFile =>
    cases answer with
    | ok value =>
      obtain ⟨-, rfl⟩ := hexec
      exact h.removed (hissue rfl hok)
    | error error => exact h.same hexec.2
  | bind =>
    cases answer with
    | ok value =>
      obtain ⟨hfree, identity, -, rfl⟩ := hexec
      exact h.bound party identity hfree
    | error error => exact h.same hexec
  | dropListener =>
    cases hexec
    exact h.closed party
  | symlinkMetadata =>
    cases answer with
    | ok file => exact h.same hexec.2
    | error error => exact h.same hexec.2
  | connect => exact h.same hexec.2
  | createDirAll => exact h.same hexec
  | setPermissions => exact h.same hexec
  | serveBound => exact h.same hexec

/-! ## The walk through a daemon -/

/-- The discipline of one daemon. -/
abbrev discipline (party : Party) : Discipline Call Answer (World Party) :=
  accord.discipline daemons party

variable {log : Log Call Answer} {identity : SocketIdentity} {path : SocketPath}
  {socketGuard : SocketPathGuard}

/-- Nothing is asked of the end of a daemon's function. -/
def anyEnd {α : Type} : α → Log Call Answer → World Party → Prop :=
  fun _ _ _ => True

theorem safe_done {α : Type} {value : α} :
    Safe (discipline party) anyEnd (.done value) log world :=
  fun _ _ _ => trivial

/-- Making a call other than the removal. -/
theorem safe_ask {α : Type} {post : α → Log Call Answer → World Party → Prop} {call : Call}
    {next : Answer call → Task α} (hcall : call ≠ .removeFile)
    (hnext : ∀ later, later.Invariant → world.Rely party later → ∀ answer world',
      later.exec party call answer world' →
        Safe (discipline party) post (next answer) (⟨call, answer⟩ :: log) world') :
    Safe (discipline party) post (ask call >>= next) log world := by
  intro later hinv hrely
  exact ⟨fun h => absurd h hcall, hnext later hinv hrely⟩

/-- The removal of a file whose inode number is the recorded one. -/
theorem safe_removeFile {α : Type} {file : Metadata} {next : Answer .removeFile → Task α}
    (hrecorded : Recorded party identity (⟨.symlinkMetadata, .ok file⟩ :: log) world)
    (hsocket : file.isSocket = true) (hidentity : file.identity = identity)
    (hnext : ∀ answer log world, Safe (discipline party) anyEnd (next answer) log world) :
    Safe (discipline party) anyEnd (ask .removeFile >>= next)
      (⟨.symlinkMetadata, .ok file⟩ :: log) world := by
  intro later hinv hrely
  refine ⟨fun _ hundisturbed current hcurrent => ?_, fun answer world' _ => hnext _ _ _⟩
  obtain ⟨recorded, hmem, hsame, hharmless⟩ := hrecorded.rely hrely
  obtain ⟨hhead, hdistinct⟩ := hundisturbed
  have hfound : file = current := Option.some_inj.mp (hhead current hcurrent)
  have hfile : recorded = file :=
    hdistinct recorded hmem file (.head _) (hsame.trans hidentity.symm)
  subst hfound
  rw [hfile] at hharmless
  exact ⟨hsocket, hharmless.deserted hcurrent⟩

theorem safe_removeSocketIfOwned (h : Recorded party identity log world) :
    Safe (discipline party) anyEnd (removeSocketIfOwned path identity) log world := by
  refine safe_ask (by decide) fun later _ hrely answer world' hexec => ?_
  have hrecorded := h.rely hrely
  cases answer with
  | error error =>
    dsimp only
    split <;> exact safe_done
  | ok file =>
    obtain ⟨-, rfl⟩ := hexec
    dsimp only
    split
    · exact safe_done
    · rename_i hsame
      simp only [Bool.or_eq_true, Bool.not_eq_true', bne_iff_ne, ne_eq, not_or,
        Bool.not_eq_false, not_not] at hsame
      obtain ⟨hsocket, hidentity⟩ := hsame
      refine safe_removeFile ?_ hsocket hidentity fun answer _ _ => ?_
      · obtain ⟨recorded, hmem, hrest⟩ := hrecorded
        exact ⟨recorded, .tail _ hmem, hrest⟩
      · cases answer <;> exact safe_done

theorem safe_inspectSocketPath :
    Safe (discipline party) anyEnd (inspectSocketPath path) log world := by
  refine safe_ask (by decide) fun later hinv _ answer world' hexec => ?_
  cases answer with
  | error error =>
    dsimp only
    split <;> exact safe_done
  | ok file =>
    obtain ⟨hfile, rfl⟩ := hexec
    have hknown := hinv.file file hfile
    dsimp only
    split
    · exact safe_done
    refine safe_ask (by decide) fun later hinv hrely answer world'' hexec => ?_
    obtain ⟨hprobed, rfl⟩ := hexec
    have hlater : file.file < world''.files := Nat.lt_of_lt_of_le hknown hrely.files
    cases answer with
    | connected => exact safe_done
    | elapsed => exact safe_done
    | failed error =>
      dsimp only
      split
      · rename_i hrefused
        simp only [World.probed, hrefused] at hprobed
        obtain ⟨stale, hstale, hdeserted⟩ := hprobed
        refine safe_removeSocketIfOwned ⟨file, .head _, rfl, hlater, fun hsame other _ => ?_⟩
        rw [hsame] at hstale
        cases hstale
        exact hdeserted other
      · exact safe_done
      · exact safe_done

theorem safe_prepareSocketPath :
    Safe (discipline party) anyEnd (prepareSocketPath path) log world := by
  unfold prepareSocketPath
  cases path.parent with
  | none => exact safe_inspectSocketPath
  | some parent =>
    refine safe_ask nofun fun later _ _ answer world' _ => ?_
    cases answer with
    | error error => exact safe_done
    | ok value => exact safe_inspectSocketPath

/-- What `socket_identity` has found. -/
theorem safe_socketIdentity :
    Safe (discipline party)
      (fun result log' world' => ∀ identity, result = .ok identity →
        ∃ file middle, log' = ⟨.symlinkMetadata, .ok file⟩ :: log ∧ file.isSocket = true ∧
          file.identity = identity ∧ world.Rely party middle ∧ middle.file = some file ∧
          middle.Rely party world')
      (socketIdentity path) log world := by
  refine safe_ask (by decide) fun middle _ hrely answer world' hexec => ?_
  cases answer with
  | error error =>
    intro later _ _ identity hidentity
    cases hidentity
  | ok file =>
    obtain ⟨hfile, rfl⟩ := hexec
    dsimp only
    split
    · intro later _ _ identity hidentity
      cases hidentity
    · rename_i hsocket
      intro later _ hlater identity hidentity
      cases hidentity
      exact ⟨file, world', rfl, by simpa using hsocket, rfl, hrely, hfile, hlater⟩

theorem safe_drop (h : Recorded party socketGuard.identity log world) :
    Safe (discipline party) anyEnd socketGuard.drop log world := by
  refine Safe.bind safe_socketIdentity fun result log' world' _ hfound => ?_
  cases result with
  | error error => exact safe_done
  | ok identity =>
    obtain ⟨file, middle, rfl, hsocket, hfile, hbefore, -, hafter⟩ := hfound identity rfl
    dsimp only
    split
    · exact safe_done
    · rename_i hsame
      simp only [bne_iff_ne, ne_eq, not_not] at hsame
      obtain ⟨recorded, hmem, hrecorded, hharmless⟩ := h.rely (hbefore.trans hafter)
      refine safe_removeFile ⟨recorded, .tail _ hmem, hrecorded, hharmless⟩ hsocket
        (hfile.trans hsame) fun _ _ _ => ?_
      exact safe_done

theorem Harmless.closed {file : Metadata} (h : Harmless party file world) :
    Harmless party file (world.closed party) := by
  refine ⟨h.known, fun hfile other hother hsome => h.deserted hfile other hother ?_⟩
  simpa [World.closed, hother] using hsome

theorem Recorded.closed (h : Recorded party identity log world) :
    Recorded party identity (⟨.dropListener, ()⟩ :: log) (world.closed party) := by
  obtain ⟨file, hmem, hidentity, hharmless⟩ := h
  exact ⟨file, hmem, hidentity, hharmless.closed⟩

/-- The guard of a socket just bound has recorded it. -/
theorem safe_newGuard {own : Metadata} (hlistener : world.listener party = some own)
    (hfile : world.file = some own) :
    Safe (discipline party)
      (fun result log' world' => ∀ socketGuard, result = .ok socketGuard →
        Recorded party socketGuard.identity log' world')
      (SocketPathGuard.new path) log world := by
  refine Safe.bind safe_socketIdentity fun result log' world' hinv hfound => ?_
  cases result with
  | error error =>
    intro later _ _ socketGuard hguard
    cases hguard
  | ok identity =>
    obtain ⟨file, middle, rfl, -, hidentity, hbefore, hmiddle, hafter⟩ := hfound identity rfl
    have hown : file = own :=
      Option.some_inj.mp (hmiddle.symm.trans (hbefore.kept own hlistener hfile))
    have hlistening : world'.listener party = some file := by
      rw [hafter.own, hbefore.own, hlistener, hown]
    intro later _ hlater socketGuard hguard
    cases hguard
    exact ⟨file, .head _, hidentity, (hinv.harmless hlistening).rely hlater⟩

theorem safe_guardSocket {own : Metadata} {socketMode : UInt32}
    (hlistener : world.listener party = some own) (hfile : world.file = some own) :
    Safe (discipline party)
      (fun result log' world' => ∀ socketGuard, result = .ok socketGuard →
        Recorded party socketGuard.identity log' world')
      (guardSocket path socketMode) log world := by
  refine Safe.bind (safe_newGuard hlistener hfile) fun result log' world' _ hguard => ?_
  cases result with
  | error error =>
    refine safe_ask (by decide) fun later _ _ answer world'' _ => ?_
    intro last _ _ socketGuard hsome
    cases hsome
  | ok socketGuard =>
    have hrecorded := hguard socketGuard rfl
    refine safe_ask nofun fun later _ hrely answer world'' hexec => ?_
    cases hexec
    cases answer with
    | error error =>
      refine Safe.bind (safe_drop (hrecorded.rely hrely)) ?_
      intro _ _ _ _ _
      refine safe_ask (by decide) fun later _ _ answer world'' _ => ?_
      intro last _ _ socketGuard hsome
      cases hsome
    | ok value =>
      intro last _ hlast socketGuard' hsome
      cases hsome
      exact (hrecorded.rely hrely).rely hlast

theorem safe_bind {socketMode : UInt32} :
    Safe (discipline party)
      (fun result log' world' => ∀ socketGuard, result = .ok socketGuard →
        Recorded party socketGuard.identity log' world')
      (bind path socketMode) log world := by
  refine Safe.bind safe_prepareSocketPath fun result log' world' _ _ => ?_
  cases result with
  | error error =>
    intro later _ _ socketGuard hguard
    cases hguard
  | ok value =>
    refine safe_ask (by decide) fun later _ _ answer world'' hexec => ?_
    cases answer with
    | error error =>
      intro later _ _ socketGuard hguard
      cases hguard
    | ok value =>
      obtain ⟨-, identity, -, rfl⟩ := hexec
      exact safe_guardSocket (Function.update_self ..) rfl

theorem safe_serve (h : Recorded party socketGuard.identity log world) :
    Safe (discipline party) anyEnd (serve socketGuard) log world := by
  refine safe_ask (by decide) fun later _ hrely result world' hexec => ?_
  cases hexec
  refine safe_ask (by decide) fun last _ hlast answer world'' hexec => ?_
  cases hexec
  refine Safe.bind (safe_drop ?_) fun _ _ _ _ _ => safe_done
  exact ((h.rely hrely).rely hlast).closed

theorem safe_daemon {socketMode : UInt32} :
    Safe (discipline party) anyEnd (daemon path socketMode) log world := by
  refine Safe.bind safe_bind fun result log' world' _ hguard => ?_
  cases result with
  | error error => exact safe_done
  | ok socketGuard => exact safe_serve (hguard socketGuard rfl)

/-- The daemons keep the accord where they are undisturbed. -/
theorem kept (path : SocketPath) (socketMode : Party → UInt32) :
    accord.Kept daemons (fun party => daemon path (socketMode party)) (fun _ => anyEnd)
      Undisturbed where
  perform _ _ _ _ _ _ hinv hissue hok hexec := keeps_exec hinv hissue hok hexec
  interfere world world' hinv hplaced := by
    obtain ⟨hfree, identity, rfl⟩ := hplaced
    exact hinv.placed identity hfree
  stop party world world' hinv hstop := by
    cases hstop
    exact hinv.closed party
  main _ _ _ := safe_daemon

end Accord

/-- Nobody listens at the start. -/
theorem invariant_initial (existing : Option (Bool × SocketIdentity)) :
    (World.initial existing : World Party).Invariant := by
  refine ⟨fun file hfile => ?_, nofun, nofun⟩
  cases existing with
  | none => cases hfile
  | some found =>
    cases hfile
    exact Nat.zero_lt_one

/-! ## The guarantee -/

/-- A step takes away no file but a socket, and that by the removal of a daemon while no other
    daemon listens on it. -/
def Spares (c : Daemons Party) (move : Move Party Call) (c' : Daemons Party) : Prop :=
  ∀ file, c.world.file = some file → c'.world.file ≠ some file →
    file.isSocket = true ∧ ∃ party, move = .perform party .removeFile ∧
      ∀ other, other ≠ party → c.world.listener other ≠ some file

section Spares

variable [DecidableEq Party] {path : SocketPath} {socketMode : Party → UInt32}
  {existing : Option (Bool × SocketIdentity)} {c c' : Daemons Party} {move : Move Party Call}

/-- The removal is the only call that takes a file from the path. -/
theorem removes_of_exec {party : Party} {world world' : World Party} {call : Call}
    {answer : Answer call} {file : Metadata} (hexec : world.exec party call answer world')
    (hfile : world.file = some file) (hgone : world'.file ≠ some file) : call = .removeFile := by
  cases call with
  | removeFile => rfl
  | symlinkMetadata =>
    cases answer <;> exact absurd (hexec.2 ▸ hfile) hgone
  | bind =>
    cases answer with
    | ok value =>
      rw [hexec.1] at hfile
      cases hfile
    | error error => exact absurd (hexec ▸ hfile) hgone
  | connect => exact absurd (hexec.2 ▸ hfile) hgone
  | dropListener =>
    cases hexec
    exact absurd hfile hgone
  | createDirAll => exact absurd (hexec ▸ hfile) hgone
  | setPermissions => exact absurd (hexec ▸ hfile) hgone
  | serveBound => exact absurd (hexec ▸ hfile) hgone

/-- In every run of any number of daemons whose removals are undisturbed, no daemon removes the
    path while it names a socket another daemon listens on, or a file that is no socket. -/
theorem removals_spare_live_sockets
    (h : Reachable path socketMode (Parties.permitting Undisturbed) existing c)
    (hstep : daemons.Step (fun party => daemon path (socketMode party)) c move c')
    (hok : Parties.permitting Undisturbed c move) : Spares c move c' := by
  have hsound := Accord.Sound.reach (kept path socketMode) (invariant_initial existing) h
  intro file hfile hgone
  cases hstep with
  | interfere hplaced =>
    rw [hplaced.1] at hfile
    cases hfile
  | start => exact absurd hfile hgone
  | @perform party call next answer world' htask hexec =>
    have hcall : call = .removeFile := removes_of_exec hexec hfile hgone
    subst hcall
    obtain ⟨hsocket, hdeserted⟩ := hsound.issue htask rfl hok file hfile
    exact ⟨hsocket, party, rfl, hdeserted⟩
  | stop _ hstop =>
    cases hstop
    exact absurd hfile hgone

end Spares

/-! ## Two daemons and a stale socket -/

/-- The socket path of two daemons. -/
def sharedPath : SocketPath := ⟨"/run/control-plane.sock", none⟩

/-- The socket a daemon has left there. -/
def staleSocket : Metadata := ⟨true, ⟨1, 7⟩, 0⟩

/-- The socket a daemon leaves that has bound it on a free path. -/
def leftSocket : Metadata := ⟨true, ⟨1, 7⟩, 1⟩

/-- The answer of a probe that nobody takes. -/
def refused : Probe := .failed ⟨.connectionRefused, "Connection refused"⟩

/-- A daemon finds the stale socket, probes it, compares it once more and is about to remove it. -/
theorem reached_removal {c c' : Daemons Bool}
    (h : daemons.Reach (fun _ => daemon sharedPath 0o660) (permitting Undisturbed) c c')
    (party : Bool) (htask : c'.task party = none) (hfile : c'.world.file = some staleSocket)
    (hdeserted : ∀ other, c'.world.listener other ≠ some staleSocket) :
    ∃ next, (∃ rest, next (.ok ()) = .call .bind rest) ∧
      daemons.Reach (fun _ => daemon sharedPath 0o660) (permitting Undisturbed) c
        { world := c'.world
          task := Function.update c'.task party (some (.call .removeFile next))
          log := Function.update c'.log party
            [⟨.symlinkMetadata, .ok staleSocket⟩, ⟨.connect, refused⟩,
              ⟨.symlinkMetadata, .ok staleSocket⟩] } := by
  have h := h.step (.start party htask) trivial
  have h := h.perform party .symlinkMetadata (.ok staleSocket) (Function.update_self ..)
    ⟨hfile, rfl⟩ trivial
  have h := h.perform party .connect refused (Function.update_self ..)
    ⟨⟨staleSocket, hfile, hdeserted⟩, rfl⟩ trivial
  have h := h.perform party .symlinkMetadata (.ok staleSocket) (Function.update_self ..)
    ⟨hfile, rfl⟩ trivial
  simp only [Function.update_idem, Function.update_self] at h
  exact ⟨_, ⟨_, rfl⟩, h⟩

/-- Two daemons are about to remove the stale socket. The second one removes it and listens on a
    socket of its own, and the first one removes that. -/
theorem live_socket_is_removed :
    ∃ c c' : Daemons Bool,
      Reachable sharedPath (fun _ => 0o660) anyMove (some (true, ⟨1, 7⟩)) c ∧
      daemons.Step (fun _ => daemon sharedPath 0o660) c (.perform false .removeFile) c' ∧
      ¬ Spares c (.perform false .removeFile) c' := by
  obtain ⟨first, -, h⟩ := reached_removal
    (c := .idle (World.initial (some (true, ⟨1, 7⟩)))) .refl false rfl rfl nofun
  obtain ⟨second, ⟨rest, hrest⟩, h⟩ := reached_removal h true rfl rfl nofun
  have h := h.any.perform true .removeFile (.ok ()) rfl ⟨rfl, rfl⟩ trivial
  rw [hrest] at h
  have h := h.perform true .bind (.ok ()) rfl ⟨rfl, ⟨1, 8⟩, nofun, rfl⟩ trivial
  obtain ⟨c', hstep, hworld⟩ := h.can_perform false .removeFile (.ok ()) rfl ⟨rfl, rfl⟩
  refine ⟨_, c', h, hstep, fun hspares => ?_⟩
  obtain ⟨-, party, hmove, hdeserted⟩ := hspares _ rfl (by rw [hworld]; nofun)
  cases hmove
  exact hdeserted true (by decide) rfl

/-- From a free path, one daemon comes to serve and is killed while the other one looks at its
    socket. The other one, which nobody disturbs, removes what the first one has left. -/
theorem stale_socket_is_spared :
    ∃ c c' : Daemons Bool,
      Reachable sharedPath (fun _ => 0o660) (permitting Undisturbed) none c ∧
      c.log true = [⟨.symlinkMetadata, .ok leftSocket⟩, ⟨.connect, refused⟩,
        ⟨.symlinkMetadata, .ok leftSocket⟩] ∧
      c.world.file = some leftSocket ∧ c'.world.file = none ∧
      Spares c (.perform true .removeFile) c' := by
  have h : Reachable sharedPath (fun _ => 0o660) (permitting Undisturbed) none
      (.idle (World.initial none) : Daemons Bool) := .refl
  have h := h.step (.start false rfl) trivial
  have h := h.perform false .symlinkMetadata (.error ⟨.notFound, "No such file or directory"⟩) rfl
    ⟨fun _ => rfl, rfl⟩ trivial
  have h := h.perform false .bind (.ok ()) rfl ⟨rfl, ⟨1, 7⟩, nofun, rfl⟩ trivial
  have h := h.perform false .symlinkMetadata (.ok leftSocket) rfl ⟨rfl, rfl⟩ trivial
  have h := h.perform false (.setPermissions 0o660) (.ok ()) rfl rfl trivial
  -- the first daemon serves
  have h := h.step (.start true rfl) trivial
  have h := h.perform true .symlinkMetadata (.ok leftSocket) rfl ⟨rfl, rfl⟩ trivial
  have h := h.step (show daemons.Step _ _ (.stop false) _ from .stop rfl rfl) trivial
  have h := h.perform true .connect refused rfl ⟨⟨leftSocket, rfl, by decide⟩, rfl⟩ trivial
  have h := h.perform true .symlinkMetadata (.ok leftSocket) rfl ⟨rfl, rfl⟩ trivial
  obtain ⟨c', hstep, hworld⟩ := h.can_perform true .removeFile (.ok ()) rfl ⟨rfl, rfl⟩
  refine ⟨_, c', h, rfl, rfl, by rw [hworld], removals_spare_live_sockets h hstep ?_⟩
  refine ⟨fun file hfile => hfile, fun file hmem other hother _ => ?_⟩
  have honly : ∀ found ∈ [leftSocket, leftSocket], found = leftSocket := by decide
  exact (honly file hmem).trans (honly other hother).symm

end ControlPlane.Rpc
