import ControlPlane.Interaction.Program
import Mathlib.Logic.Relation

/-!
# A program restarted for ever among other parties

The transition system of one worker that runs the same program again and again. Other parties
act between its operations, an operation may be answered abnormally, and the worker may crash
at any point and start over. `System.Reach` is reachability along steps that all meet a
condition, so that runs without crashes, or runs that avoid some step, need no second system.
-/

namespace ControlPlane.Interaction

variable {Op : Type} {Answer : Op → Type} {W : Type} {α : Type}

/-- How the world moves. -/
structure System (Op : Type) (Answer : Op → Type) (W : Type) where
  /-- an operation, done and answered -/
  exec : W → (op : Op) → Answer op → W → Prop
  /-- an operation that fails for a reason of its own -/
  fault : W → (op : Op) → Answer op → W → Prop
  /-- a step of another party -/
  interfere : W → W → Prop
  /-- a crash, possibly in the middle of an operation, and the restart after it -/
  crash : W → Option Op → W → Prop

/-- The world, what is left of the program in progress, and what it has done so far. -/
structure Config (Op : Type) (Answer : Op → Type) (W : Type) (α : Type) where
  world : W
  task : Option (Program Op Answer α)
  log : Log Op Answer

/-- The operation a program is about to do. -/
def Program.pending : Program Op Answer α → Option Op
  | .done _ => none
  | .call op _ => some op

namespace Config

/-- The operation about to be done. -/
def pending (c : Config Op Answer W α) : Option Op :=
  c.task.bind Program.pending

/-- No program is in progress. -/
def idle (world : W) : Config Op Answer W α := ⟨world, none, []⟩

end Config

/-- The kinds of step. -/
inductive Label where
  | interfere
  | start
  | perform
  | fault
  | finish
  | crash
  deriving DecidableEq

namespace System

variable (S : System Op Answer W) (main : Program Op Answer α)

/-- One step of the system. -/
inductive Step : Config Op Answer W α → Label → Config Op Answer W α → Prop where
  | interfere {world world' task log} : S.interfere world world' →
      Step ⟨world, task, log⟩ .interfere ⟨world', task, log⟩
  | start {world log} : Step ⟨world, none, log⟩ .start ⟨world, some main, []⟩
  | perform {world op next answer world' log} : S.exec world op answer world' →
      Step ⟨world, some (.call op next), log⟩ .perform
        ⟨world', some (next answer), ⟨op, answer⟩ :: log⟩
  | fault {world op next answer world' log} : S.fault world op answer world' →
      Step ⟨world, some (.call op next), log⟩ .fault
        ⟨world', some (next answer), ⟨op, answer⟩ :: log⟩
  | finish {world value log} : Step ⟨world, some (.done value), log⟩ .finish (.idle world)
  | crash {world task log world'} : S.crash world (task.bind Program.pending) world' →
      Step ⟨world, task, log⟩ .crash (.idle world')

/-- Reachability along steps that meet a condition. -/
def Reach (allowed : Config Op Answer W α → Label → Config Op Answer W α → Prop) :
    Config Op Answer W α → Config Op Answer W α → Prop :=
  Relation.ReflTransGen fun c c' => ∃ label, S.Step main c label c' ∧ allowed c label c'

/-- No condition on the steps. -/
def anyStep : Config Op Answer W α → Label → Config Op Answer W α → Prop :=
  fun _ _ _ => True

variable {S main} {allowed allowed' : Config Op Answer W α → Label → Config Op Answer W α → Prop}
  {c c' : Config Op Answer W α}

theorem Reach.weaken (h : S.Reach main allowed c c')
    (himp : ∀ first label second, allowed first label second → allowed' first label second) :
    S.Reach main allowed' c c' := by
  induction h with
  | refl => exact .refl
  | tail _ hstep ih =>
    obtain ⟨label, hstep, hok⟩ := hstep
    exact ih.tail ⟨label, hstep, himp _ _ _ hok⟩

theorem Reach.any (h : S.Reach main allowed c c') : S.Reach main anyStep c c' :=
  h.weaken fun _ _ _ _ => trivial

theorem Reach.step {c'' : Config Op Answer W α} {label : Label} (h : S.Reach main allowed c c')
    (hstep : S.Step main c' label c'') (hok : allowed c' label c'') :
    S.Reach main allowed c c'' :=
  Relation.ReflTransGen.tail h ⟨label, hstep, hok⟩

/-- The induction rule: what holds at the start and is kept by every allowed step from a
    reachable configuration holds of every reachable configuration. -/
theorem Reach.invariant (property : Config Op Answer W α → Prop)
    (h : S.Reach main allowed c c') (start : property c)
    (keep : ∀ first label second, S.Reach main allowed c first → S.Step main first label second →
      allowed first label second → property first → property second) : property c' := by
  induction h with
  | refl => exact start
  | tail hreach hstep ih =>
    obtain ⟨label, hstep, hok⟩ := hstep
    exact keep _ label _ hreach hstep hok ih

/-- `event` was added to the log by a step of the run from `start` to `c`. -/
def Performed (S : System Op Answer W) (main : Program Op Answer α)
    (allowed : Config Op Answer W α → Label → Config Op Answer W α → Prop)
    (start c : Config Op Answer W α) (event : Event Op Answer) : Prop :=
  ∃ before after, S.Reach main allowed start before ∧
    (∃ label, S.Step main before label after ∧ allowed before label after) ∧
    S.Reach main allowed after c ∧ before.pending = some event.op ∧
    after.log = event :: before.log ∧
    (S.exec before.world event.op event.answer after.world ∨
      S.fault before.world event.op event.answer after.world)

theorem Performed.step {c'' : Config Op Answer W α} {label : Label} {event : Event Op Answer}
    (h : Performed S main allowed c c' event) (hstep : S.Step main c' label c'')
    (hok : allowed c' label c'') : Performed S main allowed c c'' event := by
  obtain ⟨before, after, hbefore, hadd, hafter, hrest⟩ := h
  exact ⟨before, after, hbefore, hadd, hafter.step hstep hok, hrest⟩

/-- Every event of the log was performed on the way. -/
theorem Reach.performed {world : W} (h : S.Reach main allowed (.idle world) c)
    {event : Event Op Answer} (hmem : event ∈ c.log) :
    Performed S main allowed (.idle world) c event := by
  refine h.invariant
    (fun c => ∀ event ∈ c.log, Performed S main allowed (.idle world) c event) ?_ ?_ event hmem
  · intro event hmem
    cases hmem
  intro first label second hfirst hstep hok ih event hmem
  have hold : event ∈ first.log → Performed S main allowed (.idle world) second event :=
    fun hmem => (ih event hmem).step hstep hok
  cases hstep with
  | interfere hother => exact hold hmem
  | start => cases hmem
  | finish => cases hmem
  | crash => cases hmem
  | perform hexec =>
    rcases List.mem_cons.mp hmem with rfl | hmem
    · exact ⟨_, _, hfirst, ⟨_, .perform hexec, hok⟩, .refl, rfl, rfl, .inl hexec⟩
    · exact hold hmem
  | fault hfault =>
    rcases List.mem_cons.mp hmem with rfl | hmem
    · exact ⟨_, _, hfirst, ⟨_, .fault hfault, hok⟩, .refl, rfl, rfl, .inr hfault⟩
    · exact hold hmem

/-- A program that nothing interferes with, as steps of the system. -/
theorem Reach.of_runs {program : Program Op Answer α} {world world' : W} {log log' : Log Op Answer}
    {value : α} (hruns : Runs S.exec program world log value world' log')
    (h : S.Reach main allowed c ⟨world, some program, log⟩)
    (hok : ∀ first second, allowed first .perform second) :
    S.Reach main allowed c ⟨world', some (.done value), log'⟩ := by
  induction hruns with
  | done => exact h
  | call hexec _ ih => exact ih (h.step (.perform hexec) (hok _ _))

/-- The repeated program from its start to its end, if nothing interferes with it. -/
theorem Reach.of_main {world world' : W} {log log' : Log Op Answer} {value : α}
    (h : S.Reach main allowed c ⟨world, none, log⟩)
    (hruns : Runs S.exec main world [] value world' log')
    (hok : ∀ first label second, label ∈ [.start, .perform, .finish] →
      allowed first label second) :
    S.Reach main allowed c (.idle world') := by
  have hstarted := h.step .start (hok _ _ _ (by decide))
  have hdone := hstarted.of_runs hruns fun first second => hok _ _ _ (by decide)
  exact hdone.step .finish (hok _ _ _ (by decide))

/-- Without a program in progress there are no events. -/
theorem Reach.log_nil {world : W} (h : S.Reach main allowed (.idle world) c)
    (htask : c.task = none) : c.log = [] := by
  refine h.invariant (fun c => c.task = none → c.log = []) (fun _ => rfl) ?_ htask
  intro first label second _ hstep _ ih htask
  cases hstep with
  | interfere => exact ih htask
  | start | perform | fault => cases htask
  | finish | crash => rfl

/-! ## Histories -/

/-- The configurations of a system at one moment after another. A run that ends, or a moment at
    which nothing happens, repeats a configuration. -/
def History (S : System Op Answer W) (main : Program Op Answer α)
    (configs : Nat → Config Op Answer W α) : Prop :=
  ∀ moment, configs (moment + 1) = configs moment ∨
    ∃ label, S.Step main (configs moment) label (configs (moment + 1))

/-- A history goes through reachable configurations. -/
theorem History.reach {configs : Nat → Config Op Answer W α} (h : S.History main configs)
    (moment : Nat) : S.Reach main anyStep (configs 0) (configs moment) := by
  induction moment with
  | zero => exact .refl
  | succ moment ih =>
    rcases h moment with hsame | ⟨label, hstep⟩
    · rw [hsame]
      exact ih
    · exact ih.step hstep trivial

/-! ## Counting steps -/

/-- Reachability along allowed steps, so many of which count. -/
inductive Counted (S : System Op Answer W) (main : Program Op Answer α)
    (allowed counts : Config Op Answer W α → Label → Config Op Answer W α → Prop)
    (start : Config Op Answer W α) : Nat → Config Op Answer W α → Prop where
  | refl : Counted S main allowed counts start 0 start
  | other {count c label c'} : Counted S main allowed counts start count c →
      S.Step main c label c' → allowed c label c' → ¬ counts c label c' →
      Counted S main allowed counts start count c'
  | one {count c label c'} : Counted S main allowed counts start count c →
      S.Step main c label c' → allowed c label c' → counts c label c' →
      Counted S main allowed counts start (count + 1) c'

theorem Counted.reach {counts : Config Op Answer W α → Label → Config Op Answer W α → Prop}
    {count : Nat} (h : Counted S main allowed counts c count c') :
    S.Reach main allowed c c' := by
  induction h with
  | refl => exact .refl
  | other _ hstep hok _ ih => exact ih.step hstep hok
  | one _ hstep hok _ ih => exact ih.step hstep hok

/-! ## Soundness of the discipline -/

/-- What a configuration promises under a discipline: the invariant, and that the program in
    progress, if any, is safe to go on. -/
structure Sound (D : Discipline Op Answer W) (post : α → Log Op Answer → W → Prop)
    (c : Config Op Answer W α) : Prop where
  inv : D.inv c.world
  safe : ∀ program, c.task = some program → Safe D post program c.log c.world

section Sound

variable {D : Discipline Op Answer W} {post : α → Log Op Answer → W → Prop}

/-- An operation about to be done is one the discipline allows. -/
theorem Sound.issue (h : Sound D post c) {op : Op} (hpending : c.pending = some op) :
    D.issue c.log c.world op := by
  obtain ⟨world, task, log⟩ := c
  cases task with
  | none => cases hpending
  | some program =>
    cases program with
    | done value => cases hpending
    | call op' next =>
      cases hpending
      exact (h.safe _ rfl world h.inv (D.rely_refl world)).1

/-- A program about to return has what it promised. -/
theorem Sound.promise {value : α} (h : Sound D post c) (htask : c.task = some (.done value)) :
    post value c.log c.world :=
  h.safe _ htask c.world h.inv (D.rely_refl _)

/-- The obligations of a discipline on a system. -/
structure Obeys (S : System Op Answer W) (main : Program Op Answer α)
    (D : Discipline Op Answer W) (post : α → Log Op Answer → W → Prop) : Prop where
  exec : ∀ world op answer world', D.exec world op answer world' ↔
    S.exec world op answer world' ∨ S.fault world op answer world'
  interfere : ∀ world world', D.inv world → S.interfere world world' →
    D.inv world' ∧ D.rely world world'
  keep : ∀ log world op answer world', D.inv world → D.issue log world op →
    D.exec world op answer world' → D.inv world'
  crash : ∀ world pending world', D.inv world → S.crash world pending world' → D.inv world'
  main : ∀ world, D.inv world → Safe D post main [] world

/-- One step keeps a configuration sound. -/
theorem Sound.step (obeys : Obeys S main D post) {label : Label} (h : Sound D post c)
    (hstep : S.Step main c label c') : Sound D post c' := by
  cases hstep with
  | interfere hother =>
    obtain ⟨hinv, hrely⟩ := obeys.interfere _ _ h.inv hother
    exact ⟨hinv, fun program htask => (h.safe program htask).mono hrely⟩
  | start =>
    refine ⟨h.inv, fun program htask => ?_⟩
    cases htask
    exact obeys.main _ h.inv
  | perform hexec =>
    have hexec := (obeys.exec _ _ _ _).mpr (.inl hexec)
    have hissue := h.issue rfl
    refine ⟨obeys.keep _ _ _ _ _ h.inv hissue hexec, fun program htask => ?_⟩
    cases htask
    exact (h.safe _ rfl _ h.inv (D.rely_refl _)).2 _ _ hexec
  | fault hfault =>
    have hexec := (obeys.exec _ _ _ _).mpr (.inr hfault)
    have hissue := h.issue rfl
    refine ⟨obeys.keep _ _ _ _ _ h.inv hissue hexec, fun program htask => ?_⟩
    cases htask
    exact (h.safe _ rfl _ h.inv (D.rely_refl _)).2 _ _ hexec
  | finish => exact ⟨h.inv, fun _ htask => by cases htask⟩
  | crash hcrash => exact ⟨obeys.crash _ _ _ h.inv hcrash, fun _ htask => by cases htask⟩

/-- Every configuration reachable from an idle one that keeps the invariant is sound. -/
theorem Reach.sound (obeys : Obeys S main D post) {world : W} (hinv : D.inv world)
    (h : S.Reach main allowed (.idle world) c) : Sound D post c :=
  h.invariant (Sound D post) ⟨hinv, fun _ htask => by cases htask⟩ fun _ _ _ _ hstep _ hsound =>
    hsound.step obeys hstep

end Sound

end System

end ControlPlane.Interaction
