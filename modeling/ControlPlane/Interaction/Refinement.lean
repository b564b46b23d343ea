import ControlPlane.Interaction.System
import Mathlib.Data.List.Induction

/-!
# Runs of a system as runs of an abstract machine

An abstract machine is a relation between states, with a name for everything that can be done. A
system refines it when each of its steps does one thing by name or nothing at all. Then what holds
of all traces of the machine holds of the system, steps that are counted in the system can be
counted by name in the trace, and a history of the system is one of the machine, moment by moment.
-/

namespace ControlPlane.Interaction

/-- What every action may do to a state. -/
structure Machine (Act A : Type) where
  step : A → Act → A → Prop

namespace Machine

variable {Act A : Type} {M : Machine Act A} {start middle last : A} {actions more : List Act}

/-- A run of the machine, with its actions in order. -/
inductive Trace (M : Machine Act A) (start : A) : List Act → A → Prop where
  | nil : Trace M start [] start
  | snoc {actions middle action last} : Trace M start actions middle →
      M.step middle action last → Trace M start (actions ++ [action]) last

theorem Trace.append (first : M.Trace start actions middle) (second : M.Trace middle more last) :
    M.Trace start (actions ++ more) last := by
  induction second with
  | nil =>
    rw [List.append_nil]
    exact first
  | snoc _ hstep ih =>
    rw [← List.append_assoc]
    exact ih.snoc hstep

theorem Trace.of_snoc {action : Act} (h : M.Trace start (actions ++ [action]) last) :
    ∃ middle, M.Trace start actions middle ∧ M.step middle action last := by
  generalize htaken : actions ++ [action] = taken at h
  cases h with
  | nil => cases actions <;> cases htaken
  | snoc hfirst hstep =>
    obtain ⟨rfl, heq⟩ := List.append_inj' htaken rfl
    cases heq
    exact ⟨_, hfirst, hstep⟩

theorem Trace.split (h : M.Trace start (actions ++ more) last) :
    ∃ middle, M.Trace start actions middle ∧ M.Trace middle more last := by
  induction more using List.reverseRecOn generalizing last with
  | nil =>
    rw [List.append_nil] at h
    exact ⟨last, h, .nil⟩
  | append_singleton more action ih =>
    rw [← List.append_assoc] at h
    obtain ⟨before, hbefore, hstep⟩ := h.of_snoc
    obtain ⟨middle, hfirst, hsecond⟩ := ih hbefore
    exact ⟨middle, hfirst, hsecond.snoc hstep⟩

/-- An action in the middle of a trace. -/
theorem Trace.at {action : Act} (h : M.Trace start (actions ++ action :: more) last) :
    ∃ before after, M.Trace start actions before ∧ M.step before action after ∧
      M.Trace after more last := by
  rw [← List.singleton_append, ← List.append_assoc] at h
  obtain ⟨after, hfirst, hrest⟩ := h.split
  obtain ⟨before, hbefore, hstep⟩ := hfirst.of_snoc
  exact ⟨before, after, hbefore, hstep, hrest⟩

/-- What every action keeps holds at the end of a trace. -/
theorem Trace.invariant (property : A → Prop) (h : M.Trace start actions last)
    (hstart : property start)
    (keep : ∀ before action after, M.step before action after → property before →
      property after) : property last := by
  induction h with
  | nil => exact hstart
  | snoc _ hstep ih => exact keep _ _ _ hstep ih

/-- What the actions of a trace keep holds at its end. -/
theorem Trace.keeps (property : A → Prop) (h : M.Trace start actions last)
    (hstart : property start)
    (keep : ∀ before action after, action ∈ actions → M.step before action after →
      property before → property after) : property last := by
  induction h with
  | nil => exact hstart
  | snoc _ hstep ih =>
    refine keep _ _ _ (List.mem_append_right _ List.mem_cons_self) hstep (ih ?_)
    intro before action after hmem
    exact keep before action after (List.mem_append_left _ hmem)

/-- A trace is one of another machine, through a view of the states, if every step is one where an
    invariant holds. -/
theorem Trace.view {B : Type} {N : Machine Act B} (view : A → B) (invariant : A → Prop)
    (h : M.Trace start actions last) (hstart : invariant start)
    (hstep : ∀ before action after, M.step before action after → invariant before →
      invariant after ∧ N.step (view before) action (view after)) :
    invariant last ∧ N.Trace (view start) actions (view last) := by
  induction h with
  | nil => exact ⟨hstart, .nil⟩
  | snoc _ hlast ih =>
    obtain ⟨hkept, hseen⟩ := hstep _ _ _ hlast ih.1
    exact ⟨hkept, ih.2.snoc hseen⟩

/-- A quantity that grows with certain actions by one, as long as only such actions are taken that
    do not reset it, counts them. -/
theorem Trace.counts [DecidableEq Act] (quantity : A → Nat) (counted : Act) {allowed : Act → Prop}
    (h : M.Trace start actions last) (hallowed : ∀ action ∈ actions, allowed action)
    (hstep : ∀ before action after, M.step before action after → allowed action →
      quantity before + (if action = counted then 1 else 0) ≤ quantity after) :
    quantity start + actions.count counted ≤ quantity last := by
  induction h with
  | nil => exact Nat.le_refl _
  | @snoc actions middle action last _ hlast ih =>
    have hbefore := ih fun other hmem => hallowed other (List.mem_append_left _ hmem)
    have hafter := hstep middle action last hlast
      (hallowed action (List.mem_append_right _ List.mem_cons_self))
    have hcount : (actions ++ [action]).count counted =
        actions.count counted + (if action = counted then 1 else 0) := by
      rw [List.count_append, List.count_singleton]
      simp only [beq_iff_eq]
    omega

end Machine

/-! ## Simulation -/

section Simulation

variable {Op : Type} {Answer : Op → Type} {W α : Type} {S : System Op Answer W}
  {main : Program Op Answer α}
  {allowed counts : Config Op Answer W α → Label → Config Op Answer W α → Prop}
  {c c' : Config Op Answer W α} {Act A : Type} {M : Machine Act A} {start : A}

/-- A step to `c'` does nothing to the machine, or one action. -/
inductive Simulated {C : Type} (M : Machine Act A) (related : C → A → Prop) (before : A) (c' : C) :
    Option Act → Prop where
  | stutter : related c' before → Simulated M related before c' none
  | action {action after} : M.step before action after → related c' after →
      Simulated M related before c' (some action)

/-- A run of the system is one of the machine, if every step is simulated. -/
theorem System.Reach.simulated {related : Config Op Answer W α → A → Prop}
    (h : S.Reach main allowed c c') (hstart : related c start)
    (hstep : ∀ first label second before, S.Reach main allowed c first →
      S.Step main first label second → allowed first label second → related first before →
      ∃ action, Simulated M related before second action) :
    ∃ actions last, M.Trace start actions last ∧ related c' last := by
  induction h with
  | refl => exact ⟨[], start, .nil, hstart⟩
  | tail hreach hlast ih =>
    obtain ⟨label, hlast, hallowed⟩ := hlast
    obtain ⟨actions, before, htrace, hrelated⟩ := ih
    obtain ⟨action, hsimulated⟩ := hstep _ label _ before hreach hlast hallowed hrelated
    cases hsimulated with
    | stutter hsame => exact ⟨actions, before, htrace, hsame⟩
    | action haction hafter => exact ⟨_, _, htrace.snoc haction, hafter⟩

/-- Steps that are counted are counted in the trace, if they are those that do one action. -/
theorem System.Counted.simulated [DecidableEq Act] {related : Config Op Answer W α → A → Prop}
    {counted : Act} {count : Nat} {permitted : Act → Prop}
    (h : System.Counted S main allowed counts c count c') (hstart : related c start)
    (hstep : ∀ first label second before, S.Reach main allowed c first →
      S.Step main first label second → allowed first label second → related first before →
      ∃ action, Simulated M related before second action ∧
        (∀ taken, action = some taken → permitted taken) ∧
        (counts first label second ↔ action = some counted)) :
    ∃ actions last, M.Trace start actions last ∧ related c' last ∧
      (∀ action ∈ actions, permitted action) ∧ actions.count counted = count := by
  have hnext : ∀ {count first label second}, System.Counted S main allowed counts c count first →
      S.Step main first label second → allowed first label second →
      (∃ actions last, M.Trace start actions last ∧ related first last ∧
        (∀ action ∈ actions, permitted action) ∧ actions.count counted = count) →
      ∃ (action : Option Act) (actions : List Act) (last : A), M.Trace start actions last ∧
        related second last ∧ (∀ action ∈ actions, permitted action) ∧
        actions.count counted = count + (if action = some counted then 1 else 0) ∧
        (counts first label second ↔ action = some counted) := by
    rintro count first label second hcounted hlast hallowed ⟨actions, before, htrace, hrelated,
      hpermitted, hcount⟩
    obtain ⟨action, hsimulated, htaken, hcounts⟩ :=
      hstep _ label _ before hcounted.reach hlast hallowed hrelated
    refine ⟨action, ?_⟩
    cases hsimulated with
    | stutter hsame => exact ⟨actions, before, htrace, hsame, hpermitted, by simpa using hcount,
        hcounts⟩
    | @action taken after haction hafter =>
      refine ⟨_, after, htrace.snoc haction, hafter, fun other hmem => ?_, ?_, hcounts⟩
      · rcases List.mem_append.mp hmem with hmem | hmem
        · exact hpermitted other hmem
        · rw [List.mem_singleton.mp hmem]
          exact htaken taken rfl
      · rw [List.count_append, List.count_singleton, hcount]
        simp only [beq_iff_eq, Option.some_inj]
  induction h with
  | refl => exact ⟨[], start, .nil, hstart, fun _ hmem => absurd hmem List.not_mem_nil, rfl⟩
  | other hcounted hlast hallowed hnot ih =>
    obtain ⟨action, actions, last, htrace, hrelated, hpermitted, hcount, hcounts⟩ :=
      hnext hcounted hlast hallowed ih
    rw [if_neg fun heq => hnot (hcounts.mpr heq)] at hcount
    exact ⟨actions, last, htrace, hrelated, hpermitted, hcount⟩
  | one hcounted hlast hallowed hone ih =>
    obtain ⟨action, actions, last, htrace, hrelated, hpermitted, hcount, hcounts⟩ :=
      hnext hcounted hlast hallowed ih
    rw [if_pos (hcounts.mp hone)] at hcount
    exact ⟨actions, last, htrace, hrelated, hpermitted, hcount⟩

/-! ## Histories -/

/-- The states of a machine at one moment after another; at a moment at most one action is done. -/
def Machine.History (M : Machine Act A) (states : Nat → A) : Prop :=
  ∀ moment, states (moment + 1) = states moment ∨
    ∃ action, M.step (states moment) action (states (moment + 1))

/-- What every action keeps holds at every moment. -/
theorem Machine.History.invariant {states : Nat → A} (property : A → Prop) (h : M.History states)
    (hstart : property (states 0))
    (keep : ∀ before action after, M.step before action after → property before →
      property after) (moment : Nat) : property (states moment) := by
  induction moment with
  | zero => exact hstart
  | succ moment ih =>
    rcases h moment with hsame | ⟨action, hstep⟩
    · rw [hsame]
      exact ih
    · exact keep _ action _ hstep ih

variable {configs : Nat → Config Op Answer W α}

/-- A history of the system is one of the machine, moment by moment, if every step is simulated. -/
theorem System.History.simulated {related : Config Op Answer W α → A → Prop}
    (h : S.History main configs) (hstart : related (configs 0) start)
    (hstep : ∀ first label second before, S.Reach main anyStep (configs 0) first →
      S.Step main first label second → related first before →
      ∃ action, Simulated M related before second action) :
    ∃ states : Nat → A, states 0 = start ∧ M.History states ∧
      ∀ moment, related (configs moment) (states moment) := by
  have hnext : ∀ moment before, related (configs moment) before →
      ∃ after, (after = before ∨ ∃ action, M.step before action after) ∧
        related (configs (moment + 1)) after := by
    intro moment before hrelated
    rcases h moment with hsame | ⟨label, hlast⟩
    · exact ⟨before, .inl rfl, hsame ▸ hrelated⟩
    · obtain ⟨action, hsimulated⟩ := hstep _ label _ before (h.reach moment) hlast hrelated
      cases hsimulated with
      | stutter hafter => exact ⟨before, .inl rfl, hafter⟩
      | action haction hafter => exact ⟨_, .inr ⟨_, haction⟩, hafter⟩
  have : Nonempty A := ⟨start⟩
  choose! next hmoved hrelated using hnext
  have hall : ∀ moment, related (configs moment) (Nat.rec start next moment) := by
    intro moment
    induction moment with
    | zero => exact hstart
    | succ moment ih => exact hrelated moment _ ih
  exact ⟨fun moment => Nat.rec start next moment, rfl,
    fun moment => hmoved moment _ (hall moment), hall⟩

end Simulation

end ControlPlane.Interaction
