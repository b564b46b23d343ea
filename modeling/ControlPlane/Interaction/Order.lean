import ControlPlane.Interaction.System

/-!
# The order of operations

What a program may do next, judged by what it has done so far and by nothing else. Such a condition
is kept whatever the operations answer and whatever happens to the world in between, so it needs
no invariant of the world.
-/

namespace ControlPlane.Interaction

variable {Op : Type} {Answer : Op → Type} {W : Type} {α β : Type}
  {issue : Log Op Answer → Op → Prop} {post : α → Log Op Answer → Prop} {log : Log Op Answer}

namespace Program

/-- Every operation the program comes to is one that `issue` allows after the events before it,
    and if the program ends then `post` holds. -/
def Orderly (issue : Log Op Answer → Op → Prop) (post : α → Log Op Answer → Prop) :
    Program Op Answer α → Log Op Answer → Prop
  | .done value, log => post value log
  | .call op next, log => issue log op ∧ ∀ answer, (next answer).Orderly issue post
      (⟨op, answer⟩ :: log)

theorem Orderly.weaken {post' : α → Log Op Answer → Prop} {program : Program Op Answer α}
    (h : program.Orderly issue post log) (himp : ∀ value log', post value log' → post' value log') :
    program.Orderly issue post' log := by
  induction program generalizing log with
  | done value => exact himp value log h
  | call op next ih =>
    obtain ⟨hissue, hnext⟩ := h
    exact ⟨hissue, fun answer => ih answer (hnext answer)⟩

/-- The rule of sequencing. -/
theorem Orderly.bind {between : α → Log Op Answer → Prop} {post : β → Log Op Answer → Prop}
    {program : Program Op Answer α} {next : α → Program Op Answer β}
    (first : program.Orderly issue between log)
    (rest : ∀ value log', between value log' → (next value).Orderly issue post log') :
    (program >>= next).Orderly issue post log := by
  induction program generalizing log with
  | done value => exact rest value log first
  | call op next' ih =>
    obtain ⟨hissue, hnext⟩ := first
    exact ⟨hissue, fun answer => ih answer (hnext answer)⟩

/-- The events from before are still in the log when the program ends. -/
theorem Orderly.extends {program : Program Op Answer α} (h : program.Orderly issue post log) :
    program.Orderly issue (fun value log' => post value log' ∧ log <:+ log') log := by
  suffices hsuffix : ∀ base, base <:+ log →
      program.Orderly issue (fun value log' => post value log' ∧ base <:+ log') log from
    hsuffix log (List.suffix_refl log)
  intro base hbase
  induction program generalizing log with
  | done value => exact ⟨h, hbase⟩
  | call op next ih =>
    obtain ⟨hissue, hnext⟩ := h
    exact ⟨hissue, fun answer => ih answer (hnext answer) (hbase.trans (List.suffix_cons _ _))⟩

end Program

namespace Config

/-- The program in progress, if any, goes on in order. -/
def Orderly (issue : Log Op Answer → Op → Prop) (post : α → Log Op Answer → Prop)
    (c : Config Op Answer W α) : Prop :=
  ∀ program, c.task = some program → program.Orderly issue post c.log

theorem orderly_idle (world : W) : (Config.idle world).Orderly issue post :=
  fun _ htask => by cases htask

/-- An operation about to be done is one that may come next. -/
theorem Orderly.allows {c : Config Op Answer W α} (h : c.Orderly issue post) {op : Op}
    (hpending : c.pending = some op) : issue c.log op := by
  obtain ⟨world, task, log⟩ := c
  rcases task with _ | ⟨value⟩ | ⟨op', next⟩
  · cases hpending
  · cases hpending
  · cases hpending
    exact (h _ rfl).1

/-- One step keeps the order, if the repeated program does. -/
theorem Orderly.step {S : System Op Answer W} {main : Program Op Answer α}
    {c c' : Config Op Answer W α} {label : Label} (hmain : main.Orderly issue post [])
    (h : c.Orderly issue post) (hstep : S.Step main c label c') : c'.Orderly issue post := by
  cases hstep with
  | interfere => exact h
  | start =>
    intro program htask
    cases htask
    exact hmain
  | perform | fault =>
    intro program htask
    cases htask
    exact (h _ rfl).2 _
  | finish => exact orderly_idle _
  | crash => exact orderly_idle _

end Config

/-- The program of a reachable configuration goes on in order. -/
theorem System.Reach.orderly {S : System Op Answer W} {main : Program Op Answer α}
    {allowed : Config Op Answer W α → Label → Config Op Answer W α → Prop} {world : W}
    {c : Config Op Answer W α} (hmain : main.Orderly issue post [])
    (h : S.Reach main allowed (.idle world) c) : c.Orderly issue post :=
  h.invariant (Config.Orderly issue post) (Config.orderly_idle world)
    fun _ _ _ _ hstep _ horderly => horderly.step hmain hstep

end ControlPlane.Interaction
