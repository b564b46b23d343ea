import ControlPlane.Interaction.Program
import Mathlib.Logic.Function.Basic
import Mathlib.Logic.Relation

/-!
# Parties that share a world

Any number of parties, each a process that runs a program of its own over a common world. Their
operations interleave in any order, each of them atomic. A process stops at the end of its
program or anywhere before it, and may be started again. `Accord` is what the parties grant each
other: the invariant they all keep, and for each of them what the others leave it.
-/

namespace ControlPlane.Interaction

variable {Party Op : Type} {Answer : Op → Type} {W α : Type}

/-- How the parties move the world. -/
structure Parties (Party Op : Type) (Answer : Op → Type) (W : Type) where
  /-- an operation of a party, done and answered -/
  exec : Party → W → (op : Op) → Answer op → W → Prop
  /-- a step of nobody among them -/
  interfere : W → W → Prop
  /-- the end of a party's process -/
  stop : Party → W → W → Prop

/-- The kinds of step. -/
inductive Move (Party Op : Type) where
  | interfere
  | start (party : Party)
  | perform (party : Party) (op : Op)
  | stop (party : Party)

namespace Parties

/-- The world, and for each party what is left of its program and what it has done so far. -/
structure State (Party Op : Type) (Answer : Op → Type) (W α : Type) where
  world : W
  task : Party → Option (Program Op Answer α)
  log : Party → Log Op Answer

/-- Nobody has started. -/
def State.idle (world : W) : State Party Op Answer W α := ⟨world, fun _ => none, fun _ => []⟩

variable [DecidableEq Party] (S : Parties Party Op Answer W) (main : Party → Program Op Answer α)

/-- One step of one party, or of nobody. -/
inductive Step : State Party Op Answer W α → Move Party Op → State Party Op Answer W α → Prop where
  | interfere {c world'} : S.interfere c.world world' → Step c .interfere { c with world := world' }
  | start {c} (party) : c.task party = none →
      Step c (.start party)
        { c with
          task := Function.update c.task party (some (main party))
          log := Function.update c.log party [] }
  | perform {c party op next answer world'} : c.task party = some (.call op next) →
      S.exec party c.world op answer world' →
      Step c (.perform party op)
        { world := world'
          task := Function.update c.task party (some (next answer))
          log := Function.update c.log party (⟨op, answer⟩ :: c.log party) }
  | stop {c party program world'} : c.task party = some program → S.stop party c.world world' →
      Step c (.stop party)
        { world := world'
          task := Function.update c.task party none
          log := Function.update c.log party [] }

/-- Reachability along steps that meet a condition. -/
def Reach (allowed : State Party Op Answer W α → Move Party Op → Prop) :
    State Party Op Answer W α → State Party Op Answer W α → Prop :=
  Relation.ReflTransGen fun c c' => ∃ move, S.Step main c move c' ∧ allowed c move

/-- No condition on the steps. -/
def anyMove : State Party Op Answer W α → Move Party Op → Prop :=
  fun _ _ => True

/-- A condition on the operations, as one on the steps. -/
def permitting (permitted : Log Op Answer → W → Op → Prop) (c : State Party Op Answer W α) :
    Move Party Op → Prop
  | .perform party op => permitted (c.log party) c.world op
  | _ => True

variable {S main} {allowed : State Party Op Answer W α → Move Party Op → Prop}
  {c c' c'' : State Party Op Answer W α}

theorem Reach.step {move : Move Party Op} (h : S.Reach main allowed c c')
    (hstep : S.Step main c' move c'') (hok : allowed c' move) : S.Reach main allowed c c'' :=
  Relation.ReflTransGen.tail h ⟨move, hstep, hok⟩

theorem Reach.any (h : S.Reach main allowed c c') : S.Reach main anyMove c c' := by
  induction h with
  | refl => exact .refl
  | tail _ hstep ih =>
    obtain ⟨move, hstep, -⟩ := hstep
    exact ih.step hstep trivial

/-- A party may do the operation it has come to. -/
theorem Reach.can_perform (_ : S.Reach main allowed c c') (party : Party) (op : Op)
    (answer : Answer op) {next : Answer op → Program Op Answer α} {world' : W}
    (htask : c'.task party = some (.call op next))
    (hexec : S.exec party c'.world op answer world') :
    ∃ c'', S.Step main c' (.perform party op) c'' ∧ c''.world = world' :=
  ⟨_, .perform htask hexec, rfl⟩

theorem Reach.perform (h : S.Reach main allowed c c') (party : Party) (op : Op)
    (answer : Answer op) {next : Answer op → Program Op Answer α} {world' : W}
    (htask : c'.task party = some (.call op next)) (hexec : S.exec party c'.world op answer world')
    (hok : allowed c' (.perform party op)) :
    S.Reach main allowed c
      { world := world'
        task := Function.update c'.task party (some (next answer))
        log := Function.update c'.log party (⟨op, answer⟩ :: c'.log party) } :=
  h.step (.perform htask hexec) hok

/-- A party that does a part of its program while nobody interferes. -/
theorem Reach.of_runs {β : Type} {party : Party} {part : Program Op Answer β}
    {rest : β → Program Op Answer α} {world world' : W} {log log' : Log Op Answer} {value : β}
    {task : Party → Option (Program Op Answer α)} {logs : Party → Log Op Answer}
    (hruns : Runs (S.exec party) part world log value world' log')
    (h : S.Reach main anyMove c
      ⟨world, Function.update task party (some (part >>= rest)),
        Function.update logs party log⟩) :
    S.Reach main anyMove c
      ⟨world', Function.update task party (some (rest value)),
        Function.update logs party log'⟩ := by
  induction hruns with
  | done => exact h
  | call hexec _ ih =>
    refine ih ?_
    have hstep := h.perform party _ _ (Function.update_self ..) hexec trivial
    simp only [Function.update_idem, Function.update_self] at hstep
    exact hstep

/-- Where every operation is permitted, there is no condition on the steps. -/
theorem Reach.permitted {permitted : Log Op Answer → W → Op → Prop}
    (h : S.Reach main anyMove c c') (hall : ∀ log world op, permitted log world op) :
    S.Reach main (permitting permitted) c c' := by
  induction h with
  | refl => exact .refl
  | tail _ hstep ih =>
    obtain ⟨move, hstep, -⟩ := hstep
    refine ih.step hstep ?_
    cases move with
    | perform party op => exact hall _ _ _
    | interfere | start | stop => trivial

/-- The induction rule. -/
theorem Reach.invariant (property : State Party Op Answer W α → Prop)
    (h : S.Reach main allowed c c') (start : property c)
    (keep : ∀ first move second, S.Step main first move second → allowed first move →
      property first → property second) : property c' := by
  induction h with
  | refl => exact start
  | tail _ hstep ih =>
    obtain ⟨move, hstep, hok⟩ := hstep
    exact keep _ move _ hstep hok ih

end Parties

/-- What the parties grant each other. Each of them issues an operation only where `issue` allows
    it, and the world moves along `rely` for each party when the others act. -/
structure Accord (Party Op : Type) (Answer : Op → Type) (W : Type) where
  inv : W → Prop
  rely : Party → W → W → Prop
  rely_refl : ∀ party world, rely party world world
  rely_trans : ∀ {party first second third}, rely party first second → rely party second third →
    rely party first third
  issue : Party → Log Op Answer → W → Op → Prop

namespace Accord

/-- The discipline of one party. -/
def discipline (A : Accord Party Op Answer W) (S : Parties Party Op Answer W) (party : Party) :
    Discipline Op Answer W where
  exec := S.exec party
  inv := A.inv
  rely := A.rely party
  rely_refl := A.rely_refl party
  rely_trans := A.rely_trans
  issue := A.issue party

/-- The parties keep the accord, as long as the operations they do are permitted. -/
structure Kept (A : Accord Party Op Answer W) (S : Parties Party Op Answer W)
    (main : Party → Program Op Answer α) (post : Party → α → Log Op Answer → W → Prop)
    (permitted : Log Op Answer → W → Op → Prop) : Prop where
  perform : ∀ party log world op answer world', A.inv world → A.issue party log world op →
    permitted log world op → S.exec party world op answer world' →
      A.inv world' ∧ ∀ other, other ≠ party → A.rely other world world'
  interfere : ∀ world world', A.inv world → S.interfere world world' →
    A.inv world' ∧ ∀ party, A.rely party world world'
  stop : ∀ party world world', A.inv world → S.stop party world world' →
    A.inv world' ∧ ∀ other, other ≠ party → A.rely other world world'
  main : ∀ party world, A.inv world →
    Safe (A.discipline S party) (post party) (main party) [] world

/-- The invariant holds, and every program in progress is safe to go on. -/
structure Sound (A : Accord Party Op Answer W) (S : Parties Party Op Answer W)
    (post : Party → α → Log Op Answer → W → Prop) (c : Parties.State Party Op Answer W α) :
    Prop where
  inv : A.inv c.world
  safe : ∀ party program, c.task party = some program →
    Safe (A.discipline S party) (post party) program (c.log party) c.world

variable {A : Accord Party Op Answer W} {S : Parties Party Op Answer W}
  {main : Party → Program Op Answer α} {post : Party → α → Log Op Answer → W → Prop}
  {permitted : Log Op Answer → W → Op → Prop} {c c' : Parties.State Party Op Answer W α}

/-- An operation about to be done is one the accord allows. -/
theorem Sound.issue (h : Sound A S post c) {party : Party} {op : Op}
    {next : Answer op → Program Op Answer α} (htask : c.task party = some (.call op next)) :
    A.issue party (c.log party) c.world op :=
  (h.safe party _ htask c.world h.inv (A.rely_refl party c.world)).1

variable [DecidableEq Party]

/-- What the others do leaves a party safe, and a new task of its own is safe by itself. -/
theorem Sound.update {party : Party} {world' : W} {task : Option (Program Op Answer α)}
    {log : Log Op Answer} (h : Sound A S post c) (hinv : A.inv world')
    (hrely : ∀ other, other ≠ party → A.rely other c.world world')
    (htask : ∀ program, task = some program →
      Safe (A.discipline S party) (post party) program log world') :
    Sound A S post
      { world := world'
        task := Function.update c.task party task
        log := Function.update c.log party log } := by
  refine ⟨hinv, fun other program hprogram => ?_⟩
  by_cases hother : other = party
  · subst hother
    simp only [Function.update_self] at hprogram ⊢
    exact htask program hprogram
  · simp only [Function.update_of_ne hother] at hprogram ⊢
    exact (h.safe other program hprogram).mono (hrely other hother)

/-- One permitted step keeps the accord. -/
theorem Sound.step (kept : A.Kept S main post permitted) {move : Move Party Op}
    (h : Sound A S post c) (hstep : S.Step main c move c')
    (hok : Parties.permitting permitted c move) : Sound A S post c' := by
  cases hstep with
  | interfere hother =>
    obtain ⟨hinv, hrely⟩ := kept.interfere _ _ h.inv hother
    exact ⟨hinv, fun party program htask => (h.safe party program htask).mono (hrely party)⟩
  | start party =>
    refine h.update h.inv (fun other _ => A.rely_refl other c.world) fun program htask => ?_
    cases htask
    exact kept.main party _ h.inv
  | @perform party op next answer world' htask hexec =>
    obtain ⟨hinv, hrely⟩ := kept.perform _ _ _ _ _ _ h.inv (h.issue htask) hok hexec
    refine h.update hinv hrely fun program hprogram => ?_
    cases hprogram
    exact (h.safe party _ htask _ h.inv (A.rely_refl _ _)).2 _ _ hexec
  | stop _ hstop =>
    obtain ⟨hinv, hrely⟩ := kept.stop _ _ _ h.inv hstop
    refine h.update hinv hrely fun program htask => ?_
    cases htask

/-- Along permitted steps the accord is kept. -/
theorem Sound.reach (kept : A.Kept S main post permitted) {world : W} (hinv : A.inv world)
    (h : S.Reach main (Parties.permitting permitted) (.idle world) c) : Sound A S post c := by
  refine h.invariant (Sound A S post) ⟨hinv, fun party program htask => ?_⟩ ?_
  · cases htask
  · intro first move second hstep hok hsound
    exact hsound.step kept hstep hok

end Accord

end ControlPlane.Interaction
