import ControlPlane.Process

/-!
# The walk through a process

Processes with one database and one socket path: whoever has the lock of the database is alone at
the socket from then on, so that what it finds there stays until it changes it itself. The walk
through `main` shows that a process uses the socket only then. One walk serves two purposes: what
holds whatever the others do, and what comes of a calm run, in which nobody else acts and no call
fails for reasons of its own.
-/

namespace ControlPlane.Process

open Interaction Rpc

variable {Party : Type}

/-! ## What the processes grant each other -/

/-- Nobody listens but who has the lock. -/
def World.Exclusive (lock : String) (world : World Party) : Prop :=
  ∀ party socket, world.socket.listener party = some socket → world.owner lock = some party

/-- What the others leave the owner of the lock. -/
structure World.Kept (lock : String) (party : Party) (world world' : World Party) : Prop where
  owner : world'.owner lock = some party
  listener : world'.socket.listener party = world.socket.listener party
  file : ∀ file, world.socket.file = some file → world'.socket.file = some file

/-- What the others leave a process: nothing that it could rely on before it has the lock. -/
def World.Rely (lock : String) (party : Party) (world world' : World Party) : Prop :=
  world.owner lock = some party → world.Kept lock party world'

theorem World.Kept.trans {lock : String} {party : Party} {first second third : World Party}
    (h : first.Kept lock party second) (h' : second.Kept lock party third) :
    first.Kept lock party third :=
  ⟨h'.owner, h'.listener.trans h.listener, fun file hfile => h'.file file (h.file file hfile)⟩

theorem World.Rely.refl (lock : String) (party : Party) (world : World Party) :
    world.Rely lock party world :=
  fun howner => ⟨howner, rfl, fun _ => id⟩

theorem World.Rely.trans {lock : String} {party : Party} {first second third : World Party}
    (h : first.Rely lock party second) (h' : second.Rely lock party third) :
    first.Rely lock party third := by
  intro howner
  have hsecond := h howner
  exact hsecond.trans (h' hsecond.owner)

/-- The path leads to the socket the party listens on. -/
def World.Listening (party : Party) (world : World Party) : Prop :=
  ∃ socket, world.socket.file = some socket ∧ world.socket.listener party = some socket ∧
    socket.isSocket = true

/-- The path leads to the socket the party listens on, and the guard has recorded it. -/
def World.Guarded (party : Party) (socketGuard : SocketPathGuard) (world : World Party) : Prop :=
  ∃ socket, world.socket.file = some socket ∧ world.socket.listener party = some socket ∧
    socket.isSocket = true ∧ socket.identity = socketGuard.identity

theorem World.Guarded.kept {lock : String} {party : Party} {socketGuard : SocketPathGuard}
    {world world' : World Party} (h : world.Guarded party socketGuard)
    (hkept : world.Kept lock party world') : world'.Guarded party socketGuard := by
  obtain ⟨socket, hfile, hlistener, hrest⟩ := h
  exact ⟨socket, hkept.file socket hfile, hkept.listener.trans hlistener, hrest⟩

/-- When a process makes a call: it uses the socket only when it has the lock, removes a socket
    only, and serves where the path leads to it. -/
def Issues (lock : String) (party : Party) (world : World Party) : Call → Prop
  | .tryLock path => path = lock
  | .socket call => world.owner lock = some party ∧
      (call = .removeFile → ∀ file, world.socket.file = some file → file.isSocket = true) ∧
      (call = .serveBound → world.Listening party)
  | _ => True

/-- The processes of one lock. -/
def accord (lock : String) : Accord Party Call Answer (World Party) where
  inv := World.Exclusive lock
  rely := World.Rely lock
  rely_refl := World.Rely.refl lock
  rely_trans := World.Rely.trans
  issue party _ := Issues lock party

section Accord

variable {lock : String} {party : Party} {world world' : World Party}

/-- What the owner of the lock does concerns nobody else. -/
theorem World.Rely.of_owner (howner : world.owner lock = some party) {other : Party}
    (hother : other ≠ party) : world.Rely lock other world' := by
  intro hsome
  rw [howner] at hsome
  exact absurd (Option.some_inj.mp hsome).symm hother

/-- Before the lock is taken nobody listens. -/
theorem World.Exclusive.deserted (h : world.Exclusive lock) (hfree : world.owner lock = none)
    (party : Party) : world.socket.listener party = none := by
  cases hlistener : world.socket.listener party with
  | none => rfl
  | some socket =>
    have howner := h party socket hlistener
    rw [hfree] at howner
    cases howner

/-- Nobody but the owner listens. -/
theorem World.Exclusive.alone (h : world.Exclusive lock) (howner : world.owner lock = some party)
    {other : Party} (hother : other ≠ party) : world.socket.listener other = none := by
  cases hlistener : world.socket.listener other with
  | none => rfl
  | some socket =>
    have hsome := h other socket hlistener
    rw [howner] at hsome
    exact absurd (Option.some_inj.mp hsome).symm hother

variable [DecidableEq Party]

/-- Only its own listener is touched by a call of a party. -/
theorem listener_of_exec {socket socket' : Rpc.World Party} {call : Rpc.Call}
    {answer : Rpc.Answer call} (hexec : socket.exec party call answer socket') {other : Party}
    (hother : other ≠ party) : socket'.listener other = socket.listener other := by
  cases call with
  | symlinkMetadata | removeFile =>
    cases answer <;> rw [hexec.2]
  | bind =>
    cases answer with
    | error error => rw [hexec]
    | ok value =>
      obtain ⟨-, identity, -, rfl⟩ := hexec
      exact Function.update_of_ne hother _ _
  | dropListener =>
    cases hexec
    exact Function.update_of_ne hother _ _
  | connect => rw [hexec.2]
  | createDirAll | setPermissions | serveBound => rw [hexec]

/-- The socket calls of the owner keep the accord. -/
theorem World.Exclusive.socket (h : world.Exclusive lock) (howner : world.owner lock = some party)
    {call : Rpc.Call} {answer : Rpc.Answer call} {socket : Rpc.World Party}
    (hexec : world.socket.exec party call answer socket) :
    World.Exclusive lock { world with socket } := by
  intro other file hsome
  by_cases hother : other = party
  · rw [hother]
    exact howner
  · exact h other file ((listener_of_exec hexec hother).symm.trans hsome)

/-- Every call keeps the accord. -/
theorem keeps_exec {call : Call} {answer : Answer call} (h : world.Exclusive lock)
    (hissue : Issues lock party world call) (hexec : world.exec party call answer world') :
    world'.Exclusive lock ∧ ∀ other, other ≠ party → world.Rely lock other world' := by
  have hsame : world' = world →
      world'.Exclusive lock ∧ ∀ other, other ≠ party → world.Rely lock other world' := by
    rintro rfl
    exact ⟨h, fun other _ => World.Rely.refl lock other world'⟩
  cases call with
  | tryLock path =>
    cases answer with
    | locked =>
      obtain ⟨hfree, rfl⟩ := hexec
      cases hissue
      refine ⟨fun other socket hsome => ?_, fun other _ hsome => ?_⟩
      · rw [show world.socket.listener other = none from h.deserted hfree other] at hsome
        cases hsome
      · rw [hfree] at hsome
        cases hsome
    | wouldBlock => exact hsame hexec.2
    | failed error => exact hsame hexec
  | socket call =>
    obtain ⟨socket, hsocket, rfl⟩ := hexec
    exact ⟨h.socket hissue.1 hsocket, fun other hother => .of_owner hissue.1 hother⟩
  | createDirAll | openLock | openPool | migrate | seedCatalog | finish => exact hsame hexec

end Accord

/-! ## The walk through a process -/

/-- A socket call has not failed for reasons of its own. -/
def Unfailing.socket (world : Rpc.World Party) : (call : Rpc.Call) → Rpc.Answer call → Prop
  | .symlinkMetadata, answer => ∀ error, answer = .error error → error.kind = .notFound
  | .connect, probe => probe ≠ .elapsed ∧ ∀ error, probe = .failed error → error.kind ≠ .other
  | .removeFile, answer => ∀ error, answer = .error error → error.kind = .notFound
  | .bind, answer => ∀ error, answer = .error error →
      world.file.isSome ∨ ∃ party, (world.listener party).isSome
  | .createDirAll _, answer => answer = .ok ()
  | .setPermissions _, answer => answer = .ok ()
  | .serveBound, answer => answer = .ok ()
  | .dropListener, _ => True

/-- A call has not failed for reasons of its own. -/
def Unfailing (world : World Party) : (call : Call) → Answer call → Prop
  | .createDirAll _, answer => answer = .ok ()
  | .openLock _, answer => answer = .ok ()
  | .tryLock _, outcome => ∀ error, outcome ≠ .failed error
  | .openPool _, answer => answer = .ok ()
  | .migrate _, answer => answer = .ok ()
  | .seedCatalog, answer => answer = .ok ()
  | .socket call, answer => Unfailing.socket world.socket call answer
  | .finish result, answer => answer = result

/-- What holds of the world outlasts what the others do. -/
def Lasting (lock : String) (party : Party) (calm : Prop) (holds : World Party → Prop) : Prop :=
  ∀ world later, holds world → world.Rely lock party later → (calm → later = world) → holds later

/-- In a calm run nobody has the lock, the process does not listen, and a file at the path is a
    socket. -/
def Clear (lock : String) (party : Party) (calm : Prop) (world : World Party) : Prop :=
  calm → world.owner lock = none ∧ world.socket.listener party = none ∧
    ∀ file, world.socket.file = some file → file.isSocket = true

/-- The process has the lock; the rest as in `Clear`. -/
def Held (lock : String) (party : Party) (calm : Prop) (world : World Party) : Prop :=
  world.owner lock = some party ∧ (calm → world.socket.listener party = none ∧
    ∀ file, world.socket.file = some file → file.isSocket = true)

theorem lasting_clear {lock : String} {party : Party} {calm : Prop} :
    Lasting lock party calm (Clear lock party calm) := by
  intro world later hclear _ hcalm h
  rw [hcalm h]
  exact hclear h

theorem lasting_held {lock : String} {party : Party} {calm : Prop} :
    Lasting lock party calm (Held lock party calm) := by
  intro world later hheld hrely hcalm
  refine ⟨(hrely hheld.1).owner, fun h => ?_⟩
  rw [hcalm h]
  exact hheld.2 h

/-- A step that goes on, and in a calm run always does. -/
def Goes (calm : Prop) (between : World Party → Prop) (result : Except Failure Unit)
    (last : World Party) : Prop :=
  (result = .ok () → between last) ∧ (calm → result = .ok ())

theorem Goes.failed {calm : Prop} {between : World Party → Prop} {failure : Failure}
    {last : World Party} (h : ¬calm) : Goes calm between (.error failure) last :=
  ⟨fun hok => (by cases hok), fun hcalm => absurd hcalm h⟩

variable [DecidableEq Party]

/-- A call that is made at any time and leaves the world as it is, and whose answer is good unless
    the call has failed for reasons of its own. -/
structure Plain (lock : String) (party : Party) (call : Call) (good : Answer call → Prop) :
    Prop where
  issue : ∀ world, Issues lock party world call
  exec : ∀ {world answer world'}, World.exec party world call answer world' → world' = world
  good : ∀ {world : World Party} {answer}, Unfailing world call answer → good answer

/-- The discipline of a process: what it does, what it may count on, and when it makes a call. In
    a calm run nobody else acts and no call fails for reasons of its own. -/
structure Walk (lock : String) (party : Party) (calm : Prop)
    (D : Discipline Call Answer (World Party)) : Prop where
  exec : ∀ {world call answer world'}, D.exec world call answer world' →
    world.exec party call answer world' ∧ (calm → Unfailing world call answer)
  inv : ∀ {world}, D.inv world → world.Exclusive lock
  rely : ∀ {world world'}, D.rely world world' →
    world.Rely lock party world' ∧ (calm → world' = world)
  issue : ∀ {log world call}, Issues lock party world call → D.issue log world call

namespace Walk

variable {lock : String} {party : Party} {calm : Prop} {D : Discipline Call Answer (World Party)}
  {world : World Party} {α : Type}

/-- The owner of the lock makes a call on the socket. -/
theorem socket (walk : Walk lock party calm D) {ends : α → World Party → Prop} {call : Rpc.Call}
    {next : Rpc.Answer call → Rpc.Task α} {log : Log Rpc.Call Rpc.Answer}
    (howner : world.owner lock = some party)
    (hissue : ∀ later, world.Kept lock party later →
      (call = .removeFile → ∀ file, later.socket.file = some file → file.isSocket = true) ∧
        (call = .serveBound → later.Listening party))
    (hnext : ∀ later, later.Exclusive lock → world.Kept lock party later →
      (calm → later = world) → ∀ answer socket, later.socket.exec party call answer socket →
        (calm → Unfailing.socket later.socket call answer) → ∀ log,
          Safe (D.within Call.socket) (fun value _ last => ends value last) (next answer) log
            { later with socket }) :
    Safe (D.within Call.socket) (fun value _ last => ends value last) (Rpc.ask call >>= next) log
      world := by
  intro later hinv hrely
  obtain ⟨hkeeps, hcalm⟩ := walk.rely hrely
  have hkept := hkeeps howner
  refine ⟨fun log => walk.issue ⟨hkept.owner, hissue later hkept⟩, ?_⟩
  intro answer world' hexec
  obtain ⟨⟨socket, hsocket, rfl⟩, hunfailing⟩ := walk.exec hexec
  exact hnext later (walk.inv hinv) hkept hcalm answer socket hsocket hunfailing _

/-- A call that is neither the removal nor the service. -/
theorem ask (walk : Walk lock party calm D) {ends : α → World Party → Prop} {call : Rpc.Call}
    {next : Rpc.Answer call → Rpc.Task α} {log : Log Rpc.Call Rpc.Answer}
    (howner : world.owner lock = some party) (hcall : call ≠ .removeFile ∧ call ≠ .serveBound)
    (hnext : ∀ later, later.Exclusive lock → world.Kept lock party later →
      (calm → later = world) → ∀ answer socket, later.socket.exec party call answer socket →
        (calm → Unfailing.socket later.socket call answer) → ∀ log,
          Safe (D.within Call.socket) (fun value _ last => ends value last) (next answer) log
            { later with socket }) :
    Safe (D.within Call.socket) (fun value _ last => ends value last) (Rpc.ask call >>= next) log
      world :=
  walk.socket howner (fun _ _ => ⟨fun h => absurd h hcall.1, fun h => absurd h hcall.2⟩) hnext

/-- A function on the socket has ended. -/
theorem socket_done (walk : Walk lock party calm D) {ends : α → World Party → Prop} {value : α}
    {log : Log Rpc.Call Rpc.Answer} (howner : world.owner lock = some party)
    (hends : ∀ later, world.Kept lock party later → (calm → later = world) → ends value later) :
    Safe (D.within Call.socket) (fun value _ last => ends value last) (.done value) log world := by
  intro later _ hrely
  obtain ⟨hkeeps, hcalm⟩ := walk.rely hrely
  exact hends later (hkeeps howner) hcalm

/-! ### The socket -/

variable {path : SocketPath} {log : Log Rpc.Call Rpc.Answer} {socketGuard : SocketPathGuard}
  {expected : SocketIdentity} {socketMode : UInt32}

/-- In a calm run a stale socket is removed. -/
theorem removeSocketIfOwned (walk : Walk lock party calm D) (howner : world.owner lock = some party)
    (hstale : calm → world.socket.listener party = none ∧ ∃ file,
      world.socket.file = some file ∧ file.isSocket = true ∧ file.identity = expected) :
    Safe (D.within Call.socket)
      (fun result _ last => last.owner lock = some party ∧
        (calm → result = .ok () ∧ last.socket.file = none ∧ last.socket.listener party = none))
      (Rpc.removeSocketIfOwned path expected) log world := by
  refine walk.ask howner (by decide) ?_
  intro later _ hkept hcalm answer socket hexec hunfailing log
  cases answer with
  | error error =>
    obtain ⟨hmissing, rfl⟩ := hexec
    -- in a calm run the file is there
    have hcontra : calm → False := by
      intro h
      obtain ⟨-, file, hfile, -⟩ := hstale h
      rw [← hcalm h, hmissing (hunfailing h error rfl)] at hfile
      cases hfile
    dsimp only
    split <;> exact walk.socket_done hkept.owner fun last hlast _ =>
      ⟨hlast.owner, fun h => (hcontra h).elim⟩
  | ok found =>
    obtain ⟨hfound, rfl⟩ := hexec
    have hsame : calm → found.isSocket = true ∧ found.identity = expected := by
      intro h
      obtain ⟨-, file, hfile, hsocket, hidentity⟩ := hstale h
      rw [← hcalm h, hfound] at hfile
      cases hfile
      exact ⟨hsocket, hidentity⟩
    dsimp only
    split
    · rename_i hother
      refine walk.socket_done hkept.owner fun last hlast _ => ⟨hlast.owner, fun h => ?_⟩
      obtain ⟨hsocket, hidentity⟩ := hsame h
      simp [hsocket, hidentity] at hother
    · rename_i hother
      have hsocket : found.isSocket = true := by
        simp only [Bool.or_eq_true, Bool.not_eq_true', not_or, Bool.not_eq_false] at hother
        exact hother.1
      refine walk.socket hkept.owner
        (fun middle hmiddle => ⟨fun _ file hfile => ?_, fun h => (by cases h)⟩) ?_
      · have hsome := hmiddle.file found hfound
        rw [hfile] at hsome
        cases hsome
        exact hsocket
      · intro middle _ hmiddle hcalm' answer socket hexec hunfailing log
        cases answer with
        | error error =>
          obtain ⟨hmissing, rfl⟩ := hexec
          refine walk.socket_done hmiddle.owner fun last hlast _ => ⟨hlast.owner, fun h => ?_⟩
          have hnone := hmissing (hunfailing h error rfl)
          rw [hmiddle.file found hfound] at hnone
          cases hnone
        | ok value =>
          obtain ⟨-, rfl⟩ := hexec
          refine walk.socket_done hmiddle.owner fun last hlast hcalm'' => ⟨hlast.owner, fun h => ?_⟩
          rw [hcalm'' h]
          exact ⟨rfl, rfl, (hmiddle.listener.trans hkept.listener).trans (hstale h).1⟩

/-- In a calm run a stale socket at the path does not stay, and nothing else is in the way. -/
theorem inspectSocketPath (walk : Walk lock party calm D) (howner : world.owner lock = some party)
    (hstale : calm → world.socket.listener party = none ∧
      ∀ file, world.socket.file = some file → file.isSocket = true) :
    Safe (D.within Call.socket)
      (fun result _ last => last.owner lock = some party ∧
        (calm → result = .ok () ∧ last.socket.file = none ∧ last.socket.listener party = none))
      (Rpc.inspectSocketPath path) log world := by
  refine walk.ask howner (by decide) ?_
  intro later _ hkept hcalm answer socket hexec hunfailing log
  have hdeaf : calm → later.socket.listener party = none :=
    fun h => hkept.listener.trans (hstale h).1
  cases answer with
  | error error =>
    obtain ⟨hmissing, rfl⟩ := hexec
    dsimp only
    split
    · rename_i hkind
      refine walk.socket_done hkept.owner fun last hlast hcalm' => ⟨hlast.owner, fun h => ?_⟩
      rw [hcalm' h]
      exact ⟨rfl, hmissing hkind, hdeaf h⟩
    · rename_i hkind
      exact walk.socket_done hkept.owner fun last hlast _ =>
        ⟨hlast.owner, fun h => absurd (hunfailing h error rfl) hkind⟩
  | ok found =>
    obtain ⟨hfound, rfl⟩ := hexec
    have hsocket : calm → found.isSocket = true := by
      intro h
      refine (hstale h).2 found ?_
      rw [← hcalm h]
      exact hfound
    dsimp only
    split
    · rename_i hother
      refine walk.socket_done hkept.owner fun last hlast _ => ⟨hlast.owner, fun h => ?_⟩
      simp [hsocket h] at hother
    refine walk.ask hkept.owner (by decide) ?_
    intro middle hexclusive hmiddle hcalm' probe socket hexec hunfailing log
    obtain ⟨hprobed, rfl⟩ := hexec
    have hthere : middle.socket.file = some found := hmiddle.file found hfound
    cases probe with
    | connected =>
      refine walk.socket_done hmiddle.owner fun last hlast _ => ⟨hlast.owner, fun h => ?_⟩
      -- nobody else listens, and the process does not listen yet
      obtain ⟨file, other, -, hlistener⟩ := hprobed
      by_cases hother : other = party
      · rw [hother, hmiddle.listener] at hlistener
        rw [show later.socket.listener party = none from hdeaf h] at hlistener
        cases hlistener
      · rw [hexclusive.alone hmiddle.owner hother] at hlistener
        cases hlistener
    | elapsed =>
      exact walk.socket_done hmiddle.owner fun last hlast _ =>
        ⟨hlast.owner, fun h => absurd rfl (hunfailing h).1⟩
    | failed error =>
      dsimp only
      split
      · refine walk.removeSocketIfOwned hmiddle.owner fun h => ?_
        exact ⟨hmiddle.listener.trans (hdeaf h), found, hthere, hsocket h, rfl⟩
      · rename_i hkind
        refine walk.socket_done hmiddle.owner fun last hlast _ => ⟨hlast.owner, fun h => ?_⟩
        have hnone : middle.socket.file = none := by
          simpa only [World.probed, hkind] using hprobed
        rw [hthere] at hnone
        cases hnone
      · rename_i hkind
        exact walk.socket_done hmiddle.owner fun last hlast _ =>
          ⟨hlast.owner, fun h => absurd hkind ((hunfailing h).2 error rfl)⟩

theorem prepareSocketPath (walk : Walk lock party calm D) (howner : world.owner lock = some party)
    (hstale : calm → world.socket.listener party = none ∧
      ∀ file, world.socket.file = some file → file.isSocket = true) :
    Safe (D.within Call.socket)
      (fun result _ last => last.owner lock = some party ∧
        (calm → result = .ok () ∧ last.socket.file = none ∧ last.socket.listener party = none))
      (Rpc.prepareSocketPath path) log world := by
  unfold Rpc.prepareSocketPath
  cases path.parent with
  | none => exact walk.inspectSocketPath howner hstale
  | some parent =>
    refine walk.ask howner (by simp) ?_
    intro later _ hkept hcalm answer socket hexec hunfailing log
    cases hexec
    cases answer with
    | error error =>
      refine walk.socket_done hkept.owner fun last hlast _ => ⟨hlast.owner, fun h => ?_⟩
      cases hunfailing h
    | ok value =>
      refine walk.inspectSocketPath hkept.owner fun h => ?_
      show later.socket.listener party = none ∧ ∀ file, later.socket.file = some file → _
      rw [hcalm h]
      exact hstale h

/-- What `socket_identity` finds is at the path. -/
theorem socketIdentity (walk : Walk lock party calm D) (howner : world.owner lock = some party) :
    Safe (D.within Call.socket)
      (fun result _ last => world.Kept lock party last ∧ (calm → last = world) ∧
        (∀ identity, result = .ok identity → ∃ file, last.socket.file = some file ∧
          file.isSocket = true ∧ file.identity = identity) ∧
        ∀ failure, result = .error failure → calm →
          ∀ file, world.socket.file = some file → file.isSocket = false)
      (Rpc.socketIdentity path) log world := by
  refine walk.ask howner (by decide) ?_
  intro later _ hkept hcalm answer socket hexec hunfailing log
  cases answer with
  | error error =>
    obtain ⟨hmissing, rfl⟩ := hexec
    refine walk.socket_done hkept.owner fun last hlast hcalm' => ?_
    refine ⟨hkept.trans hlast, fun h => (hcalm' h).trans (hcalm h), ?_, ?_⟩
    · intro identity hidentity
      cases hidentity
    · intro failure _ h file hfile
      rw [← hcalm h, hmissing (hunfailing h error rfl)] at hfile
      cases hfile
  | ok found =>
    obtain ⟨hfound, rfl⟩ := hexec
    dsimp only
    split
    · rename_i hother
      refine walk.socket_done hkept.owner fun last hlast hcalm' => ?_
      refine ⟨hkept.trans hlast, fun h => (hcalm' h).trans (hcalm h), ?_, ?_⟩
      · intro identity hidentity
        cases hidentity
      · intro failure _ h file hfile
        rw [← hcalm h, hfound] at hfile
        cases hfile
        simpa using hother
    · rename_i hsocket
      refine walk.socket_done hkept.owner fun last hlast hcalm' => ?_
      refine ⟨hkept.trans hlast, fun h => (hcalm' h).trans (hcalm h), ?_, ?_⟩
      · intro identity hidentity
        cases hidentity
        exact ⟨found, hlast.file found hfound, by simpa using hsocket, rfl⟩
      · intro failure hfailure
        cases hfailure

/-- In a calm run the guard removes the socket it has recorded. -/
theorem drop (walk : Walk lock party calm D) (howner : world.owner lock = some party) :
    Safe (D.within Call.socket)
      (fun _ _ last => last.owner lock = some party ∧ (calm → ∀ socket,
        world.socket.file = some socket → socket.isSocket = true →
          socket.identity = socketGuard.identity → last.socket.file = none))
      socketGuard.drop log world := by
  refine Safe.bind (walk.socketIdentity howner) fun result log middle _ hfound => ?_
  obtain ⟨hmiddle, hcalm, hidentity, hmissing⟩ := hfound
  cases result with
  | error failure =>
    refine walk.socket_done hmiddle.owner fun last hlast _ => ⟨hlast.owner, ?_⟩
    intro h socket hfile hsocket _
    rw [hmissing failure rfl h socket hfile] at hsocket
    cases hsocket
  | ok identity =>
    obtain ⟨found, hfile, hsocket, rfl⟩ := hidentity identity rfl
    dsimp only
    split
    · rename_i hother
      refine walk.socket_done hmiddle.owner fun last hlast _ => ⟨hlast.owner, ?_⟩
      intro h socket hsome _ hsame
      rw [← hcalm h, hfile] at hsome
      cases hsome
      simp [hsame] at hother
    · refine walk.socket hmiddle.owner
        (fun later hkept => ⟨fun _ file hsome => ?_, fun h => (by cases h)⟩) ?_
      · rw [hkept.file found hfile] at hsome
        cases hsome
        exact hsocket
      · intro later _ hkept _ answer socket hexec hunfailing log
        cases answer with
        | error error =>
          obtain ⟨hmissing, rfl⟩ := hexec
          refine walk.socket_done hkept.owner fun last hlast _ => ⟨hlast.owner, ?_⟩
          intro h _ _ _ _
          have hnone := hmissing (hunfailing h error rfl)
          rw [hkept.file found hfile] at hnone
          cases hnone
        | ok value =>
          obtain ⟨-, rfl⟩ := hexec
          refine walk.socket_done hkept.owner fun last hlast hcalm' => ⟨hlast.owner, ?_⟩
          intro h _ _ _ _
          rw [hcalm' h]

/-- The guard of a socket just bound records it. -/
theorem newGuard (walk : Walk lock party calm D) (howner : world.owner lock = some party)
    (hlistening : world.Listening party) :
    Safe (D.within Call.socket)
      (fun result _ last => world.Kept lock party last ∧ (calm → last = world) ∧
        (∀ socketGuard, result = .ok socketGuard → last.Guarded party socketGuard) ∧
        (calm → ∃ socketGuard, result = .ok socketGuard))
      (SocketPathGuard.new path) log world := by
  refine Safe.bind (walk.socketIdentity howner) fun result log middle _ hfound => ?_
  obtain ⟨hmiddle, hcalm, hidentity, hmissing⟩ := hfound
  obtain ⟨own, hown, hlistener, hsocket⟩ := hlistening
  cases result with
  | error failure =>
    refine walk.socket_done hmiddle.owner fun last hlast hcalm' =>
      ⟨hmiddle.trans hlast, fun h => (hcalm' h).trans (hcalm h), ?_, ?_⟩
    · intro socketGuard hguard
      cases hguard
    · intro h
      rw [hmissing failure rfl h own hown] at hsocket
      cases hsocket
  | ok identity =>
    refine walk.socket_done hmiddle.owner fun last hlast hcalm' =>
      ⟨hmiddle.trans hlast, fun h => (hcalm' h).trans (hcalm h), ?_, fun _ => ⟨_, rfl⟩⟩
    intro socketGuard hguard
    cases hguard
    obtain ⟨found, hfile, -, rfl⟩ := hidentity identity rfl
    rw [hmiddle.file own hown] at hfile
    cases hfile
    have hkept := hmiddle.trans hlast
    exact ⟨own, hkept.file own hown, hkept.listener.trans hlistener, hsocket, rfl⟩

theorem guardSocket (walk : Walk lock party calm D) (howner : world.owner lock = some party)
    (hlistening : world.Listening party) :
    Safe (D.within Call.socket)
      (fun result _ last =>
        (∀ socketGuard, result = .ok socketGuard → last.owner lock = some party ∧
          last.Guarded party socketGuard) ∧
        (calm → ∃ socketGuard, result = .ok socketGuard))
      (Rpc.guardSocket path socketMode) log world := by
  refine Safe.bind (walk.newGuard howner hlistening) fun result log middle _ hnew => ?_
  obtain ⟨hmiddle, -, hguarded, hcalm⟩ := hnew
  cases result with
  | error failure =>
    refine walk.ask hmiddle.owner (by simp) ?_
    intro later hexclusive hkept _ answer socket _ _ log
    refine walk.socket_done hkept.owner fun last _ _ => ⟨fun _ h => (by cases h), fun h => ?_⟩
    obtain ⟨_, hguard⟩ := hcalm h
    cases hguard
  | ok socketGuard =>
    refine walk.ask hmiddle.owner (by simp) ?_
    intro later _ hkept _ answer socket hexec hunfailing log
    cases hexec
    cases answer with
    | error error =>
      have hcontra : calm → False := fun h => by cases hunfailing h
      refine Safe.bind (walk.drop hkept.owner) fun _ log last _ hlast => ?_
      refine walk.ask hlast.1 (by simp) ?_
      intro _ _ hkept' _ _ _ _ _ log
      exact walk.socket_done hkept'.owner fun _ _ _ =>
        ⟨fun _ h => (by cases h), fun h => (hcontra h).elim⟩
    | ok value =>
      refine walk.socket_done hkept.owner fun last hlast _ => ⟨?_, fun _ => ⟨_, rfl⟩⟩
      intro socketGuard' h
      cases h
      exact ⟨hlast.owner, (hguarded socketGuard rfl).kept (hkept.trans hlast)⟩

theorem bind (walk : Walk lock party calm D) (howner : world.owner lock = some party)
    (hstale : calm → world.socket.listener party = none ∧
      ∀ file, world.socket.file = some file → file.isSocket = true) :
    Safe (D.within Call.socket)
      (fun result _ last =>
        (∀ socketGuard, result = .ok socketGuard → last.owner lock = some party ∧
          last.Guarded party socketGuard) ∧
        (calm → ∃ socketGuard, result = .ok socketGuard))
      (Rpc.bind path socketMode) log world := by
  refine Safe.bind (walk.prepareSocketPath howner hstale) fun result log middle _ hfree => ?_
  obtain ⟨howner, hcalm⟩ := hfree
  cases result with
  | error failure =>
    refine walk.socket_done howner fun last _ _ => ⟨fun _ h => (by cases h), fun h => ?_⟩
    cases (hcalm h).1
  | ok value =>
    refine walk.ask howner (by simp) ?_
    intro later hexclusive hkept hsame answer socket hexec hunfailing log
    cases answer with
    | error error =>
      cases hexec
      refine walk.socket_done hkept.owner fun last _ _ => ⟨fun _ h => (by cases h), fun h => ?_⟩
      obtain ⟨-, hnone, hdeaf⟩ := hcalm h
      rw [← hsame h] at hnone hdeaf
      rcases hunfailing h error rfl with hsome | ⟨other, hsome⟩
      · rw [hnone] at hsome
        cases hsome
      · by_cases hother : other = party
        · rw [hother, hdeaf] at hsome
          cases hsome
        · rw [hexclusive.alone hkept.owner hother] at hsome
          cases hsome
    | ok value =>
      obtain ⟨-, identity, -, rfl⟩ := hexec
      exact walk.guardSocket hkept.owner ⟨_, rfl, Function.update_self .., rfl⟩

/-- The service ends with the socket removed, in a calm run. -/
theorem serve (walk : Walk lock party calm D) (howner : world.owner lock = some party)
    (hguarded : world.Guarded party socketGuard) :
    Safe (D.within Call.socket)
      (fun result _ last => calm → result = .ok () ∧ last.socket.file = none)
      (Rpc.serve socketGuard) log world := by
  refine walk.socket howner
    (fun later hkept => ⟨fun h => (by cases h), fun _ => ?_⟩) ?_
  · obtain ⟨socket, hfile, hlistener, hsocket, -⟩ := hguarded.kept hkept
    exact ⟨socket, hfile, hlistener, hsocket⟩
  intro later _ hkept _ result socket hexec hunfailing log
  cases hexec
  have hguarded := hguarded.kept hkept
  refine walk.ask hkept.owner (by simp) ?_
  intro last _ hlast _ answer socket hexec _ log
  cases hexec
  obtain ⟨own, hfile, -, hsocket, hidentity⟩ := hguarded.kept hlast
  refine Safe.bind (walk.drop hlast.owner) fun _ log ended _ hdropped => ?_
  refine walk.socket_done hdropped.1 fun final _ hcalm h => ?_
  rw [hcalm h]
  exact ⟨hunfailing h, hdropped.2 h own hfile hsocket hidentity⟩

/-! ### The databases -/

variable {holds : World Party → Prop} {context : String} {logged : Log Call Answer}

/-- A call that leaves the world as it is. -/
theorem plain (walk : Walk lock party calm D) (hlasting : Lasting lock party calm holds)
    {call : Call} {good : Answer call → Prop} (hplain : Plain lock party call good)
    (h : holds world) :
    Safe D (fun answer _ last => holds last ∧ (calm → good answer)) (Process.ask call) logged
      world := by
  intro later _ hrely
  obtain ⟨hkeeps, hcalm⟩ := walk.rely hrely
  refine ⟨walk.issue (hplain.issue later), fun answer world' hdone => ?_⟩
  obtain ⟨hcall, hunfailing⟩ := walk.exec hdone
  cases hplain.exec hcall
  intro last _ hlast
  obtain ⟨hkeeps', hcalm'⟩ := walk.rely hlast
  exact ⟨hlasting _ last (hlasting world _ h hkeeps hcalm) hkeeps' hcalm', fun h =>
    hplain.good (hunfailing h)⟩

/-- A function of the process has ended. -/
theorem ended (walk : Walk lock party calm D) {ends : α → World Party → Prop} {value : α}
    (hends : ∀ later, world.Rely lock party later → (calm → later = world) → ends value later) :
    Safe D (fun value _ last => ends value last) (.done value) logged world := by
  intro later _ hrely
  obtain ⟨hkeeps, hcalm⟩ := walk.rely hrely
  exact hends later hkeeps hcalm

theorem attempt (walk : Walk lock party calm D) (hlasting : Lasting lock party calm holds)
    {call : Task (Except FileError Unit)}
    (h : Safe D (fun answer _ last => holds last ∧ (calm → answer = .ok ())) call logged world) :
    Safe D (fun result _ last => Goes calm holds result last) (Process.attempt context call) logged
      world := by
  refine Safe.bind h fun answer log last _ hlast => ?_
  cases answer with
  | error error =>
    refine walk.ended fun _ _ _ => Goes.failed fun h => ?_
    cases hlast.2 h
  | ok value =>
    exact walk.ended fun later hrely hcalm =>
      ⟨fun _ => hlasting _ _ hlast.1 hrely hcalm, fun _ => rfl⟩

theorem andThen (walk : Walk lock party calm D) {first : Task (Except Failure Unit)}
    {second : Task (Except Failure α)} {between : World Party → Prop}
    {ends : Except Failure α → World Party → Prop}
    (hfirst : Safe D (fun result _ last => Goes calm between result last) first logged world)
    (hsecond : ∀ logged last, between last →
      Safe D (fun result _ last => ends result last) second logged last)
    (hends : ∀ failure last, ¬calm → ends (.error failure) last) :
    Safe D (fun result _ last => ends result last) (Process.andThen first second) logged
      world := by
  refine Safe.bind hfirst fun result log last _ hlast => ?_
  cases result with
  | error failure =>
    refine walk.ended fun later _ _ => hends failure later fun h => ?_
    cases hlast.2 h
  | ok value => exact hsecond log last (hlast.1 rfl)

theorem createParent (walk : Walk lock party calm D) (hlasting : Lasting lock party calm holds)
    {what : String} {database : DatabasePath} (h : holds world) :
    Safe D (fun result _ last => Goes calm holds result last)
      (Process.createParent what database) logged world := by
  unfold Process.createParent
  cases database.parent with
  | none =>
    exact walk.ended fun later hrely hcalm => ⟨fun _ => hlasting _ _ h hrely hcalm, fun _ => rfl⟩
  | some parent =>
    exact walk.attempt hlasting (walk.plain hlasting ⟨fun _ => trivial, id, id⟩ h)

/-- The lock is taken, or the process gives up. -/
theorem acquireDatabaseOwnership (walk : Walk lock party calm D) {database : DatabasePath}
    (hlock : databaseLockPath database = lock) (h : Clear lock party calm world) :
    Safe D (fun result _ last => Goes calm (Held lock party calm) result last)
      (Process.acquireDatabaseOwnership database) logged world := by
  refine Safe.bind (walk.plain lasting_clear ⟨fun _ => trivial, id, id⟩ h)
    fun answer log middle _ hopened => ?_
  obtain ⟨hclear, hgood⟩ := hopened
  cases answer with
  | error error =>
    refine walk.ended fun _ _ _ => Goes.failed fun h => ?_
    cases hgood h
  | ok value =>
    intro later _ hrely
    obtain ⟨-, hcalm⟩ := walk.rely hrely
    refine ⟨walk.issue hlock, fun answer world' hdone => ?_⟩
    obtain ⟨hcall, hunfailing⟩ := walk.exec hdone
    have hcalmly : calm → Clear lock party True later := by
      intro h _
      rw [hcalm h]
      exact hclear h
    cases answer with
    | locked =>
      obtain ⟨-, rfl⟩ := hcall
      have hheld : Held lock party calm
          { later with
            owner := Function.update later.owner (databaseLockPath database) party } := by
        refine ⟨?_, fun h => (hcalmly h trivial).2⟩
        rw [hlock]
        exact Function.update_self ..
      exact walk.ended fun last hlast hcalm' =>
        ⟨fun _ => lasting_held _ last hheld hlast hcalm', fun _ => rfl⟩
    | wouldBlock =>
      obtain ⟨hsome, rfl⟩ := hcall
      refine walk.ended fun _ _ _ => Goes.failed fun h => ?_
      rw [hlock, (hcalmly h trivial).1] at hsome
      cases hsome
    | failed error =>
      exact walk.ended fun _ _ _ => Goes.failed fun h => hunfailing h error rfl

theorem storageConnect (walk : Walk lock party calm D) {database : DatabasePath}
    (hlock : databaseLockPath database = lock) (h : Clear lock party calm world) :
    Safe D (fun result _ last => Goes calm (Held lock party calm) result last)
      (Process.storageConnect database) logged world := by
  refine walk.andThen (walk.createParent lasting_clear h) ?_ fun _ _ => Goes.failed
  intro logged last hclear
  refine walk.andThen (walk.acquireDatabaseOwnership hlock hclear) ?_ fun _ _ => Goes.failed
  intro logged last hheld
  refine walk.andThen (walk.attempt lasting_held
    (walk.plain lasting_held ⟨fun _ => trivial, id, id⟩ hheld)) ?_
    fun _ _ => Goes.failed
  intro logged last hheld
  exact walk.attempt lasting_held
    (walk.plain lasting_held ⟨fun _ => trivial, id, id⟩ hheld)

theorem fakeProviderConnect (walk : Walk lock party calm D)
    (hlasting : Lasting lock party calm holds) {database : DatabasePath} (h : holds world) :
    Safe D (fun result _ last => Goes calm holds result last)
      (Process.fakeProviderConnect database) logged world := by
  refine walk.andThen (walk.createParent hlasting h) ?_ fun _ _ => Goes.failed
  intro logged last hlast
  refine walk.andThen (walk.attempt hlasting
    (walk.plain hlasting ⟨fun _ => trivial, id, id⟩ hlast)) ?_
    fun _ _ => Goes.failed
  intro logged last hlast
  refine walk.andThen (walk.attempt hlasting
    (walk.plain hlasting ⟨fun _ => trivial, id, id⟩ hlast)) ?_
    fun _ _ => Goes.failed
  intro logged last hlast
  exact walk.attempt hlasting
    (walk.plain hlasting ⟨fun _ => trivial, id, id⟩ hlast)

/-- A daemon that has started up has the lock, and the path leads to it. A calm one does. -/
theorem startUp (walk : Walk lock party calm D) {config : Config}
    (hlock : databaseLockPath config.databasePath = lock) (h : Clear lock party calm world) :
    Safe D
      (fun result _ last =>
        (∀ socketGuard, result = .ok socketGuard → last.owner lock = some party ∧
          last.Guarded party socketGuard) ∧
        (calm → ∃ socketGuard, result = .ok socketGuard))
      (Process.startUp config) logged world := by
  have hfailed : ∀ (failure : Failure) (last : World Party), ¬calm →
      (∀ socketGuard, (.error failure : Except Failure SocketPathGuard) = .ok socketGuard →
        last.owner lock = some party ∧ last.Guarded party socketGuard) ∧
      (calm → ∃ socketGuard, (.error failure : Except Failure SocketPathGuard) = .ok socketGuard) :=
    fun _ _ hnot => ⟨fun _ h => (by cases h), fun h => absurd h hnot⟩
  refine walk.andThen (walk.storageConnect hlock h) ?_ hfailed
  intro logged last hheld
  refine walk.andThen (walk.fakeProviderConnect lasting_held hheld) ?_ hfailed
  intro logged last hheld
  have hbinds : Safe (D.within Call.socket) _ (Rpc.bind config.socketPath config.socketMode) []
      last := walk.bind hheld.1 hheld.2
  exact hbinds.within

/-- In a calm run `main` succeeds and leaves the path free. -/
theorem main (walk : Walk lock party calm D) {config : Config}
    (hlock : databaseLockPath config.databasePath = lock) (h : Clear lock party calm world) :
    Safe D (fun result _ last => calm → result = .ok () ∧ last.socket.file = none)
      (Process.main config) logged world := by
  refine Safe.bind (walk.startUp hlock h) fun result logged started _ hstarted => ?_
  obtain ⟨hguarded, hgood⟩ := hstarted
  cases result with
  | error failure =>
    refine walk.ended fun _ _ _ h => ?_
    obtain ⟨_, hok⟩ := hgood h
    cases hok
  | ok socketGuard =>
    obtain ⟨howner, hguarded⟩ := hguarded socketGuard rfl
    have hserves : Safe (D.within Call.socket) _ (Rpc.serve socketGuard) [] started :=
      walk.serve howner hguarded
    refine Safe.bind hserves.within fun result logged served _ hserved => ?_
    have hlasting : Lasting lock party calm fun later : World Party =>
        calm → result = .ok () ∧ later.socket.file = none := by
      intro before later hbefore _ hcalm h
      rw [hcalm h]
      exact hbefore h
    have hfinishes : Safe D (fun answer _ last =>
        (calm → result = .ok () ∧ last.socket.file = none) ∧ (calm → answer = result))
        (Process.ask (.finish result)) logged served :=
      walk.plain hlasting ⟨fun _ => trivial, id, id⟩ hserved
    refine hfinishes.weaken fun answer _ last _ hlast h => ?_
    obtain ⟨hok, hfree⟩ := hlast.1 h
    exact ⟨(hlast.2 h).trans hok, hfree⟩

end Walk

end ControlPlane.Process
