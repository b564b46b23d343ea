import ControlPlane.Interaction.Program

/-!
# Programs that may fail, evaluated

A fallible program against a deterministic handler: what it returns, the world it leaves, and
the worlds a crash may leave behind in the middle of it. For a view of the world a program keeps
it, or is atomic: every such world then looks like the one before or like the one after. The
rules follow the sequencing of a program.
-/

namespace ControlPlane.Interaction

variable {Op : Type} {Answer : Op → Type} {W V ε α β : Type}

/-- A program that may stop with an error. -/
abbrev Fallible (Op : Type) (Answer : Op → Type) (ε : Type) := ExceptT ε (Program Op Answer)

namespace Program

variable (handle : W → (op : Op) → Answer op × W)

/-- The value a program returns and the world it leaves. -/
def evaluate : Program Op Answer α → W → α × W
  | .done value, world => (value, world)
  | .call op next, world => (next (handle world op).1).evaluate (handle world op).2

/-- The world after the first operations of a program. -/
def cutShort : Nat → Program Op Answer α → W → W
  | 0, _, world => world
  | _ + 1, .done _, world => world
  | n + 1, .call op next, world => cutShort n (next (handle world op).1) (handle world op).2

/-- Every world a crash may leave looks like the one before. -/
def Keeps (view : W → V) (program : Program Op Answer α) (world : W) : Prop :=
  (∀ n, view (program.cutShort handle n world) = view world) ∧
    view (program.evaluate handle world).2 = view world

/-- Every world a crash may leave looks like the one before or the one after. -/
def Atomic (view : W → V) (program : Program Op Answer α) (world : W) : Prop :=
  ∀ n, view (program.cutShort handle n world) = view world ∨
    view (program.cutShort handle n world) = view (program.evaluate handle world).2

variable {handle} {view : W → V} {world : W} {program : Program Op Answer α}
  {next : α → Program Op Answer β}

theorem evaluate_bind (program : Program Op Answer α) (next : α → Program Op Answer β)
    (world : W) :
    (program >>= next).evaluate handle world =
      (next (program.evaluate handle world).1).evaluate handle
        (program.evaluate handle world).2 := by
  induction program generalizing world with
  | done value => rfl
  | call op rest ih => exact ih _ _

/-- A sequence cut short was cut in its first part or in its second. -/
theorem cutShort_bind (n : Nat) (program : Program Op Answer α)
    (next : α → Program Op Answer β) (world : W) :
    (∃ m, (program >>= next).cutShort handle n world = program.cutShort handle m world) ∨
      ∃ m, (program >>= next).cutShort handle n world =
        (next (program.evaluate handle world).1).cutShort handle m
          (program.evaluate handle world).2 := by
  induction program generalizing n world with
  | done value => exact .inr ⟨n, rfl⟩
  | call op rest ih =>
    cases n with
    | zero => exact .inl ⟨0, rfl⟩
    | succ n =>
      rcases ih (handle world op).1 n (handle world op).2 with ⟨m, hfirst⟩ | ⟨m, hsecond⟩
      · exact .inl ⟨m + 1, hfirst⟩
      · exact .inr ⟨m, hsecond⟩

theorem keeps_done (value : α) :
    (Program.done value : Program Op Answer α).Keeps handle view world := by
  refine ⟨fun n => ?_, rfl⟩
  cases n <;> rfl

theorem keeps_perform {op : Op} (h : view (handle world op).2 = view world) :
    (perform op : Program Op Answer _).Keeps handle view world := by
  refine ⟨fun n => ?_, h⟩
  cases n with
  | zero => rfl
  | succ n =>
    have hdone : (Program.done (handle world op).1 : Program Op Answer _).Keeps handle view
        (handle world op).2 := keeps_done _
    exact (hdone.1 n).trans h

theorem keeps_bind (hfirst : program.Keeps handle view world)
    (hnext : (next (program.evaluate handle world).1).Keeps handle view
      (program.evaluate handle world).2) : (program >>= next).Keeps handle view world := by
  refine ⟨fun n => ?_, ?_⟩
  · rcases cutShort_bind n program next world with ⟨m, hcut⟩ | ⟨m, hcut⟩
    · rw [hcut, hfirst.1]
    · rw [hcut, hnext.1, hfirst.2]
  · rw [evaluate_bind, hnext.2, hfirst.2]

/-- What every operation keeps, every program keeps. -/
theorem keeps_of_handle (h : ∀ world op, view (handle world op).2 = view world)
    (program : Program Op Answer α) (world : W) : program.Keeps handle view world := by
  induction program generalizing world with
  | done value => exact keeps_done value
  | call op next ih =>
    refine ⟨fun n => ?_, ((ih _ _).2).trans (h world op)⟩
    cases n with
    | zero => rfl
    | succ n => exact ((ih _ _).1 n).trans (h world op)

theorem Keeps.atomic (h : program.Keeps handle view world) : program.Atomic handle view world :=
  fun n => .inl (h.1 n)

/-- A single operation is atomic. -/
theorem atomic_perform (op : Op) : (perform op : Program Op Answer _).Atomic handle view world := by
  intro n
  cases n with
  | zero => exact .inl rfl
  | succ n => exact .inr (by cases n <;> rfl)

/-- What follows an atomic program may not be seen. -/
theorem atomic_bind_keeps (hfirst : program.Atomic handle view world)
    (hnext : (next (program.evaluate handle world).1).Keeps handle view
      (program.evaluate handle world).2) : (program >>= next).Atomic handle view world := by
  intro n
  rw [evaluate_bind, hnext.2]
  rcases cutShort_bind n program next world with ⟨m, hcut⟩ | ⟨m, hcut⟩
  · rw [hcut]
    exact hfirst m
  · rw [hcut, hnext.1]
    exact .inr rfl

/-- What comes before an atomic program may not be seen. -/
theorem keeps_bind_atomic (hfirst : program.Keeps handle view world)
    (hnext : (next (program.evaluate handle world).1).Atomic handle view
      (program.evaluate handle world).2) : (program >>= next).Atomic handle view world := by
  intro n
  rw [evaluate_bind]
  rcases cutShort_bind n program next world with ⟨m, hcut⟩ | ⟨m, hcut⟩
  · rw [hcut]
    exact .inl (hfirst.1 m)
  · rw [hcut, ← hfirst.2]
    exact hnext m

end Program

/-! ## Fallible programs -/

namespace Fallible

open Program

/-- Await a fallible operation and return its error, as `?` does. -/
def attempt (program : Program Op Answer (Except ε α)) : Fallible Op Answer ε α :=
  ExceptT.mk program

/-- Await an operation that does not fail. -/
def ask (op : Op) : Fallible Op Answer ε (Answer op) :=
  ExceptT.lift (Program.perform op)

variable {handle : W → (op : Op) → Answer op × W} {view : W → V} {world : W}
  {first : Fallible Op Answer ε α} {next : α → Fallible Op Answer ε β}

/-- The rest of a fallible program, unless it has failed. -/
def andThen (next : α → Fallible Op Answer ε β) : Except ε α → Program Op Answer (Except ε β)
  | .ok value => (next value).run
  | .error error => .done (.error error)

theorem run_bind (first : Fallible Op Answer ε α) (next : α → Fallible Op Answer ε β) :
    (first >>= next).run = first.run >>= andThen next := by
  show first.run >>= _ = _
  congr 1

theorem evaluate_bind_ok (value : α) (middle : W)
    (h : first.run.evaluate handle world = (.ok value, middle)) :
    (first >>= next).run.evaluate handle world = (next value).run.evaluate handle middle := by
  rw [run_bind, Program.evaluate_bind, h]
  rfl

theorem evaluate_bind_error (error : ε) (middle : W)
    (h : first.run.evaluate handle world = (.error error, middle)) :
    (first >>= next).run.evaluate handle world = (.error error, middle) := by
  rw [run_bind, Program.evaluate_bind, h]
  rfl

theorem keeps_bind (hfirst : first.run.Keeps handle view world)
    (hnext : ∀ value middle, first.run.evaluate handle world = (.ok value, middle) →
      (next value).run.Keeps handle view middle) :
    (first >>= next).run.Keeps handle view world := by
  rw [run_bind]
  apply Program.keeps_bind hfirst
  cases hresult : first.run.evaluate handle world with
  | mk result middle =>
    cases result with
    | ok value => exact hnext value middle hresult
    | error error => exact keeps_done _

theorem keeps_bind_atomic (hfirst : first.run.Keeps handle view world)
    (hnext : ∀ value middle, first.run.evaluate handle world = (.ok value, middle) →
      (next value).run.Atomic handle view middle) :
    (first >>= next).run.Atomic handle view world := by
  rw [run_bind]
  apply Program.keeps_bind_atomic hfirst
  cases hresult : first.run.evaluate handle world with
  | mk result middle =>
    cases result with
    | ok value => exact hnext value middle hresult
    | error error => exact (keeps_done _).atomic

theorem atomic_bind_keeps (hfirst : first.run.Atomic handle view world)
    (hnext : ∀ value middle, first.run.evaluate handle world = (.ok value, middle) →
      (next value).run.Keeps handle view middle) :
    (first >>= next).run.Atomic handle view world := by
  rw [run_bind]
  apply Program.atomic_bind_keeps hfirst
  cases hresult : first.run.evaluate handle world with
  | mk result middle =>
    cases result with
    | ok value => exact hnext value middle hresult
    | error error => exact keeps_done _

end Fallible

end ControlPlane.Interaction
