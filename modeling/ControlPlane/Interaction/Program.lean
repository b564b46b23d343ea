import Mathlib.Logic.Basic

/-!
# Interaction programs

A sequential program that reaches its surroundings one operation at a time. Between two
operations other parties may act; what an operation answers, and what it does to the world, is
left to a relation `exec`. `Runs` is the meaning of a program nobody interferes with, and
`Safe` is the weakest precondition of a program under interference.

Nothing here depends on a particular set of operations.
-/

namespace ControlPlane.Interaction

variable {Op : Type} {Answer : Op → Type} {W : Type} {α β : Type}

/-- A program over operations `Op`, where `op` is answered by an `Answer op`. -/
inductive Program (Op : Type) (Answer : Op → Type) (α : Type) where
  | done (value : α)
  | call (op : Op) (next : Answer op → Program Op Answer α)

/-- An operation together with the answer it got. -/
structure Event (Op : Type) (Answer : Op → Type) where
  op : Op
  answer : Answer op

instance [DecidableEq Op] [∀ op, DecidableEq (Answer op)] : DecidableEq (Event Op Answer) :=
  fun ⟨op, answer⟩ ⟨op', answer'⟩ =>
    if h : op = op' then
      decidable_of_iff (h ▸ answer = answer') (by subst h; simp)
    else isFalse fun heq => h (congrArg Event.op heq)

/-- What a program has done so far, the newest event first. -/
abbrev Log (Op : Type) (Answer : Op → Type) := List (Event Op Answer)

namespace Program

/-- Sequencing. -/
def bind : Program Op Answer α → (α → Program Op Answer β) → Program Op Answer β
  | .done value, next => next value
  | .call op rest, next => .call op fun answer => (rest answer).bind next

instance : Monad (Program Op Answer) where
  pure := .done
  bind := bind

/-- The program that does one operation and returns its answer. -/
def perform (op : Op) : Program Op Answer (Answer op) :=
  .call op .done

@[simp] theorem pure_eq (value : α) : (pure value : Program Op Answer α) = .done value := rfl

@[simp] theorem done_bind (value : α) (next : α → Program Op Answer β) :
    (Program.done value >>= next) = next value := rfl

@[simp] theorem call_bind (op : Op) (rest : Answer op → Program Op Answer α)
    (next : α → Program Op Answer β) :
    (Program.call op rest >>= next) = .call op fun answer => rest answer >>= next := rfl

@[simp] theorem perform_bind (op : Op) (next : Answer op → Program Op Answer β) :
    (perform op >>= next) = .call op next := rfl

theorem bind_assoc {γ : Type} (program : Program Op Answer α) (first : α → Program Op Answer β)
    (second : β → Program Op Answer γ) :
    (program >>= first) >>= second = program >>= fun value => first value >>= second := by
  induction program with
  | done value => rfl
  | call op rest ih =>
    simp only [call_bind]
    congr 1
    funext answer
    exact ih answer

/-- The same program among more operations. -/
def within {Op' : Type} {Answer' : Op' → Type} (embed : Op → Op') :
    Program Op (fun op => Answer' (embed op)) α → Program Op' Answer' α
  | .done value => .done value
  | .call op next => .call (embed op) fun answer => (next answer).within embed

end Program

/-! ## Undisturbed runs -/

section Runs

variable (exec : W → (op : Op) → Answer op → W → Prop)

/-- `Runs exec program world log value world' log'`: with nobody interfering, `program` started
    in `world` ends with `value` in `world'`; its events are added to `log`. -/
inductive Runs : Program Op Answer α → W → Log Op Answer → α → W → Log Op Answer → Prop where
  | done {value world log} : Runs (.done value) world log value world log
  | call {op next world answer middle log value world' log'} :
      exec world op answer middle →
      Runs (next answer) middle (⟨op, answer⟩ :: log) value world' log' →
      Runs (.call op next) world log value world' log'

variable {exec}

theorem Runs.of_bind {program : Program Op Answer α} {next : α → Program Op Answer β}
    {world world' : W} {log log' : Log Op Answer} {value : β}
    (h : Runs exec (program >>= next) world log value world' log') :
    ∃ between middle middleLog, Runs exec program world log between middle middleLog ∧
      Runs exec (next between) middle middleLog value world' log' := by
  induction program generalizing world log with
  | done first => exact ⟨first, world, log, .done, h⟩
  | call op rest ih =>
    cases h with
    | call step rest' =>
      obtain ⟨between, middle, middleLog, hfirst, hnext⟩ := ih _ rest'
      exact ⟨between, middle, middleLog, .call step hfirst, hnext⟩

theorem Runs.bind {program : Program Op Answer α} {next : α → Program Op Answer β}
    {world middle world' : W} {log middleLog log' : Log Op Answer} {between : α} {value : β}
    (first : Runs exec program world log between middle middleLog)
    (rest : Runs exec (next between) middle middleLog value world' log') :
    Runs exec (program >>= next) world log value world' log' := by
  induction first with
  | done => exact rest
  | call step _ ih => exact .call step (ih rest)

theorem Runs.mono {exec' : W → (op : Op) → Answer op → W → Prop} {program : Program Op Answer α}
    {world world' : W} {log log' : Log Op Answer} {value : α}
    (h : Runs exec program world log value world' log')
    (himp : ∀ {world op answer world'}, exec world op answer world' →
      exec' world op answer world') : Runs exec' program world log value world' log' := by
  induction h with
  | done => exact .done
  | call hexec _ ih => exact .call (himp hexec) ih

/-- Where every operation can be answered, every program ends. -/
theorem Runs.exists_of_total (total : ∀ world op, ∃ answer world', exec world op answer world')
    (program : Program Op Answer α) (world : W) (log : Log Op Answer) :
    ∃ value world' log', Runs exec program world log value world' log' := by
  induction program generalizing world log with
  | done value => exact ⟨value, world, log, .done⟩
  | call op next ih =>
    obtain ⟨answer, middle, step⟩ := total world op
    obtain ⟨value, world', log', rest⟩ := ih answer middle (⟨op, answer⟩ :: log)
    exact ⟨value, world', log', .call step rest⟩

/-- Evaluate a program against a deterministic handler. -/
def Program.eval (handle : W → (op : Op) → Answer op × W) :
    Program Op Answer α → W → Log Op Answer → α × W × Log Op Answer
  | .done value, world, log => (value, world, log)
  | .call op next, world, log =>
    (next (handle world op).1).eval handle (handle world op).2
      (⟨op, (handle world op).1⟩ :: log)

/-- An evaluation is a run, if the handler only does what `exec` allows. -/
theorem Runs.of_eval {handle : W → (op : Op) → Answer op × W}
    (allowed : ∀ world op, exec world op (handle world op).1 (handle world op).2)
    (program : Program Op Answer α) (world : W) (log : Log Op Answer) :
    Runs exec program world log (program.eval handle world log).1
      (program.eval handle world log).2.1 (program.eval handle world log).2.2 := by
  induction program generalizing world log with
  | done value => exact .done
  | call op next ih => exact .call (allowed world op) (ih _ _ _)

/-- Every answer of an evaluation is one of the handler. -/
theorem Program.eval_answer {handle : W → (op : Op) → Answer op × W}
    (program : Program Op Answer α) (world : W) (log : Log Op Answer) {event : Event Op Answer}
    (hmem : event ∈ (program.eval handle world log).2.2) :
    event ∈ log ∨ ∃ middle, event.answer = (handle middle event.op).1 := by
  induction program generalizing world log with
  | done value => exact .inl hmem
  | call op next ih =>
    rcases ih _ _ _ hmem with hlogged | hanswered
    · rcases List.mem_cons.mp hlogged with rfl | hlogged
      · exact .inr ⟨world, rfl⟩
      · exact .inl hlogged
    · exact .inr hanswered

end Runs

/-! ## Programs under interference -/

/-- A rely-guarantee discipline. Other parties move the world along `rely` and keep `inv`; in
    return the program issues an operation only where `issue` allows it. -/
structure Discipline (Op : Type) (Answer : Op → Type) (W : Type) where
  exec : W → (op : Op) → Answer op → W → Prop
  inv : W → Prop
  rely : W → W → Prop
  rely_refl : ∀ world, rely world world
  rely_trans : ∀ {first second third}, rely first second → rely second third → rely first third
  issue : Log Op Answer → W → Op → Prop

/-- `Safe D post program log world`: whatever the others do along the way, every operation
    `program` comes to is one `D.issue` allows, and if it ends then `post` holds. -/
def Safe (D : Discipline Op Answer W) (post : α → Log Op Answer → W → Prop) :
    Program Op Answer α → Log Op Answer → W → Prop
  | .done value, log, world => ∀ later, D.inv later → D.rely world later → post value log later
  | .call op next, log, world => ∀ later, D.inv later → D.rely world later →
      D.issue log later op ∧
        ∀ answer world', D.exec later op answer world' →
          Safe D post (next answer) (⟨op, answer⟩ :: log) world'

/-- A discipline, as far as some of its operations go. -/
def Discipline.within {Op' : Type} {Answer' : Op' → Type} (D : Discipline Op' Answer' W)
    (embed : Op → Op') : Discipline Op (fun op => Answer' (embed op)) W where
  exec world op := D.exec world (embed op)
  inv := D.inv
  rely := D.rely
  rely_refl := D.rely_refl
  rely_trans := D.rely_trans
  issue _ world op := ∀ log, D.issue log world (embed op)

namespace Safe

variable {D : Discipline Op Answer W} {post : α → Log Op Answer → W → Prop}
  {log : Log Op Answer} {world : W}

theorem done {value : α}
    (h : ∀ later, D.inv later → D.rely world later → post value log later) :
    Safe D post (.done value) log world := h

theorem call {op : Op} {next : Answer op → Program Op Answer α}
    (h : ∀ later, D.inv later → D.rely world later → D.issue log later op ∧
      ∀ answer world', D.exec later op answer world' →
        Safe D post (next answer) (⟨op, answer⟩ :: log) world') :
    Safe D post (.call op next) log world := h

/-- Safety survives what the others do. -/
theorem mono {program : Program Op Answer α} {later : W} (h : Safe D post program log world)
    (hrely : D.rely world later) : Safe D post program log later := by
  cases program with
  | done value => exact fun last hinv hlast => h last hinv (D.rely_trans hrely hlast)
  | call op next => exact fun last hinv hlast => h last hinv (D.rely_trans hrely hlast)

/-- It is enough to be safe in every state the others may leave. -/
theorem of_later {program : Program Op Answer α}
    (h : ∀ later, D.inv later → D.rely world later → Safe D post program log later) :
    Safe D post program log world := by
  cases program with
  | done value => exact fun later hinv hrely => h later hinv hrely later hinv (D.rely_refl later)
  | call op next => exact fun later hinv hrely => h later hinv hrely later hinv (D.rely_refl later)

theorem weaken {post' : α → Log Op Answer → W → Prop} {program : Program Op Answer α}
    (h : Safe D post program log world)
    (himp : ∀ value log' world', D.inv world' → post value log' world' → post' value log' world') :
    Safe D post' program log world := by
  induction program generalizing log world with
  | done value => exact fun later hinv hrely => himp _ _ _ hinv (h later hinv hrely)
  | call op next ih =>
    intro later hinv hrely
    obtain ⟨hissue, hnext⟩ := h later hinv hrely
    exact ⟨hissue, fun answer world' hexec => ih answer (hnext answer world' hexec)⟩

/-- The rule of sequencing. -/
theorem bind {between : α → Log Op Answer → W → Prop} {post : β → Log Op Answer → W → Prop}
    {program : Program Op Answer α} {next : α → Program Op Answer β}
    (first : Safe D between program log world)
    (rest : ∀ value log' world', D.inv world' → between value log' world' →
      Safe D post (next value) log' world') :
    Safe D post (program >>= next) log world := by
  induction program generalizing log world with
  | done value =>
    exact of_later fun later hinv hrely => rest value log later hinv (first later hinv hrely)
  | call op next' ih =>
    intro later hinv hrely
    obtain ⟨hissue, hnext⟩ := first later hinv hrely
    exact ⟨hissue, fun answer world' hexec => ih answer (hnext answer world' hexec)⟩

/-- A program is as safe among more operations. -/
theorem within {Op' : Type} {Answer' : Op' → Type} {D' : Discipline Op' Answer' W}
    {embed : Op → Op'} {ends : α → W → Prop}
    {program : Program Op (fun op => Answer' (embed op)) α}
    {log : Log Op fun op => Answer' (embed op)} {log' : Log Op' Answer'}
    (h : Safe (D'.within embed) (fun value _ world => ends value world) program log world) :
    Safe D' (fun value _ world => ends value world) (program.within embed) log' world := by
  induction program generalizing log log' world with
  | done value => exact h
  | call op next ih =>
    intro later hinv hrely
    obtain ⟨hissue, hnext⟩ := h later hinv hrely
    exact ⟨hissue log', fun answer world' hexec => ih answer (hnext answer world' hexec)⟩

/-- A safe program that runs undisturbed through states that keep the invariant ends where it
    promised. -/
theorem runs {program : Program Op Answer α} {value : α} {world' : W} {log' : Log Op Answer}
    (hrun : Runs D.exec program world log value world' log')
    (hsafe : Safe D post program log world) (hinv : D.inv world)
    (hkeep : ∀ log first op answer second, D.inv first → D.issue log first op →
      D.exec first op answer second → D.inv second) :
    post value log' world' := by
  induction hrun with
  | done => exact hsafe _ hinv (D.rely_refl _)
  | call step _ ih =>
    obtain ⟨hissue, hnext⟩ := hsafe _ hinv (D.rely_refl _)
    exact ih (hnext _ _ step) (hkeep _ _ _ _ _ hinv hissue step)

end Safe

end ControlPlane.Interaction
