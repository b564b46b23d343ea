import Mathlib.Logic.Basic

/-!
# Statements and transactions

A connection to a store: the committed state and, while a transaction is open, the state its
statements work on. A session is a method as the statements it runs, one after the other; an error
leaves the connection as the last statement left it. A transaction that is still open when the
method returns is dropped and rolls back.

`Commits` says what a session makes of the transaction it runs in. Its rules follow the shape of a
method, so a method is seen to be one atomic step without opening the connection.
-/

namespace ControlPlane.Interaction

variable {S ε α β : Type}

/-- The committed state, and what an open transaction sees. -/
structure Connection (S : Type) where
  committed : S
  transaction : Option S

/-- The state a statement works on. -/
def Connection.current (c : Connection S) : S :=
  c.transaction.getD c.committed

/-- The state after a statement. Outside a transaction every statement commits. -/
def Connection.write (c : Connection S) (state : S) : Connection S :=
  match c.transaction with
  | some _ => { c with transaction := some state }
  | none => { c with committed := state }

/-- A method as the statements it runs. -/
def Session (S ε α : Type) := Connection S → Except ε α × Connection S

namespace Session

def bind (first : Session S ε α) (next : α → Session S ε β) : Session S ε β := fun c =>
  match first c with
  | (.ok value, c') => next value c'
  | (.error error, c') => (.error error, c')

instance : Monad (Session S ε) where
  pure value := fun c => (.ok value, c)
  bind := bind

/-- `begin` -/
def start : Session S ε Unit := fun c =>
  (.ok (), { c with transaction := some c.committed })

/-- `commit` -/
def commit : Session S ε Unit := fun c =>
  (.ok (), { committed := c.current, transaction := none })

/-- A statement that reads. -/
def query (read : S → α) : Session S ε α := fun c => (.ok (read c.current), c)

/-- A statement that writes, unless it fails. -/
def execute (statement : S → Except ε (α × S)) : Session S ε α := fun c =>
  match statement c.current with
  | .ok (value, state) => (.ok value, c.write state)
  | .error error => (.error error, c)

/-- A computation that touches no table, its error returned as `?` does. -/
def lift (value : Except ε α) : Session S ε α := fun c => (value, c)

/-- Return an error. -/
def fail (error : ε) : Session S ε α := fun c => (.error error, c)

/-- Run a method on a connection without a transaction. One that is still open at the end is
    dropped. -/
def perform (session : Session S ε α) (state : S) : Except ε α × S :=
  ((session ⟨state, none⟩).1, (session ⟨state, none⟩).2.committed)

/-! ## The rules -/

/-- From a transaction that sees `state`, over what was committed before it, the session ends with
    `outcome`: a value and what it committed, or an error and nothing committed. -/
inductive Commits (session : Session S ε α) (committed state : S) : Except ε (α × S) → Prop where
  | ok {value state'} : session ⟨committed, some state⟩ = (.ok value, ⟨state', none⟩) →
      Commits session committed state (.ok (value, state'))
  | error {error left} : session ⟨committed, some state⟩ = (.error error, ⟨committed, left⟩) →
      Commits session committed state (.error error)

variable {session : Session S ε α} {next : α → Session S ε β} {committed state : S}
  {outcome : Except ε (β × S)}

theorem commits_pure (value : α) :
    Commits (commit >>= fun _ => pure value : Session S ε α) committed state
      (.ok (value, state)) := .ok rfl

theorem commits_fail (error : ε) :
    Commits (fail error : Session S ε α) committed state (.error error) := .error rfl

theorem commits_query {read : S → α} (h : Commits (next (read state)) committed state outcome) :
    Commits (query read >>= next) committed state outcome := by
  cases h with
  | ok h => exact .ok h
  | error h => exact .error h

/-- A computation that may fail, then the rest. -/
theorem commits_lift {value : Except ε α} {rest : α → Except ε (β × S)}
    (h : ∀ a, value = .ok a → Commits (next a) committed state (rest a)) :
    Commits (lift value >>= next) committed state (value >>= rest) := by
  cases value with
  | error error => exact .error rfl
  | ok a =>
    have hnext := h a rfl
    show Commits _ committed state (rest a)
    generalize rest a = outcome at hnext ⊢
    cases hnext with
    | ok hnext => exact .ok hnext
    | error hnext => exact .error hnext

/-- A statement, then the rest in the state it left. -/
theorem commits_execute {statement : S → Except ε (α × S)} {rest : α × S → Except ε (β × S)}
    (h : ∀ a state', statement state = .ok (a, state') →
      Commits (next a) committed state' (rest (a, state'))) :
    Commits (execute statement >>= next) committed state (statement state >>= rest) := by
  have hrun : ∀ answer, statement state = answer →
      (execute statement >>= next) ⟨committed, some state⟩ =
        match answer with
        | .ok (a, state') => next a ⟨committed, some state'⟩
        | .error error => (.error error, ⟨committed, some state⟩) := by
    rintro answer hanswer
    show bind (execute statement) next _ = _
    simp only [bind, execute, Connection.current, Option.getD_some, hanswer]
    cases answer <;> rfl
  cases hstatement : statement state with
  | error error => exact .error (hrun _ hstatement)
  | ok answer =>
    obtain ⟨a, state'⟩ := answer
    have hnext := h a state' hstatement
    show Commits _ committed state (rest (a, state'))
    generalize rest (a, state') = outcome at hnext ⊢
    cases hnext with
    | ok hnext => exact .ok ((hrun _ hstatement).trans hnext)
    | error hnext => exact .error ((hrun _ hstatement).trans hnext)

/-- What is left of an atomic step: its new state, or an error and the state before. -/
def settle (state : S) : Except ε (α × S) → Except ε α × S
  | .ok (value, state') => (.ok value, state')
  | .error error => (.error error, state)

/-- A method that opens a transaction and commits it is one atomic step. -/
theorem perform_transaction {outcome : Except ε (α × S)}
    (h : Commits session state state outcome) :
    perform (start >>= fun _ => session) state = settle state outcome := by
  have hrun : (start >>= fun _ => session) ⟨state, none⟩ = session ⟨state, some state⟩ := rfl
  unfold perform
  rw [hrun]
  cases h with
  | ok h =>
    rw [h]
    rfl
  | error h =>
    rw [h]
    rfl

/-- What fails before the first statement changes nothing. -/
theorem perform_lift {value : Except ε α} {rest : α → Except ε (β × S)}
    (h : ∀ a, value = .ok a → perform (next a) state = settle state (rest a)) :
    perform (lift value >>= next) state = settle state (value >>= rest) := by
  cases value with
  | error error => rfl
  | ok a => exact h a rfl

/-- A statement outside a transaction commits by itself: what follows it may not fail any more
    unless it changed nothing. -/
theorem perform_execute {statement : S → Except ε (α × S)} {rest : α × S → Except ε (β × S)}
    (h : ∀ a state', statement state = .ok (a, state') →
      perform (next a) state' = settle state (rest (a, state'))) :
    perform (execute statement >>= next) state = settle state (statement state >>= rest) := by
  have hrun : ∀ answer, statement state = answer →
      (execute statement >>= next) ⟨state, none⟩ =
        match answer with
        | .ok (a, state') => next a ⟨state', none⟩
        | .error error => (.error error, ⟨state, none⟩) := by
    rintro answer hanswer
    show bind (execute statement) next _ = _
    simp only [bind, execute, Connection.current, Option.getD_none, hanswer]
    cases answer <;> rfl
  cases hstatement : statement state with
  | error error =>
    unfold perform
    rw [hrun _ hstatement]
    rfl
  | ok answer =>
    obtain ⟨a, state'⟩ := answer
    have hnext := h a state' hstatement
    unfold perform at hnext ⊢
    rw [hrun _ hstatement]
    exact hnext

end Session

end ControlPlane.Interaction
