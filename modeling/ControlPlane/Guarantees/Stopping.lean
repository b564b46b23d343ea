import ControlPlane.Guarantees.WakeUps

/-!
# The loop stops between passes

A loop that is told to stop goes on with the pass in progress and at most with the rest of its
turn, and is never left in the middle of a pass. What bounds it is how many passes the turn has
left: a new turn is entered only where the token is not cancelled.
-/

namespace ControlPlane.Service

open Interaction

variable {σ : Type} {P : ProviderModel σ} {provider : σ} {s s' : Service σ} {count : Nat}

/-- A pass begins. -/
def Begins (s s' : Service σ) : Prop :=
  s.state.task = none ∧ s'.state.task ≠ none

/-- A run of a loop that has been told to stop, and how many passes begin in it. A crash is no part
    of it: the token of a new process is not cancelled. -/
inductive Stopping (P : ProviderModel σ) (s : Service σ) : Nat → Service σ → Prop where
  | refl : s.cancelled = true → Stopping P s 0 s
  | other {count : Nat} {s' s'' : Service σ} : Stopping P s count s' → Step P s' s'' →
      s''.cancelled = true → ¬Begins s' s'' → Stopping P s count s''
  | pass {count : Nat} {s' s'' : Service σ} : Stopping P s count s' → Step P s' s'' →
      s''.cancelled = true → Begins s' s'' → Stopping P s (count + 1) s''

/-- The passes that may still begin in this turn. -/
def left (s : Service σ) : Nat :=
  match s.phase with
  | .stepping steps => maxStepsPerWake - steps - (if s.state.task.isSome then 1 else 0)
  | _ => 0

theorem left_of_phase (h : ∀ steps, s.phase ≠ .stepping steps) : s.left = 0 := by
  unfold left
  split
  · rename_i steps hphase
    exact absurd hphase (h steps)
  · rfl

theorem left_stepping {steps : Nat} (h : s.phase = .stepping steps) :
    s.left = maxStepsPerWake - steps - (if s.state.task.isSome then 1 else 0) := by
  unfold left
  rw [h]

theorem left_le : s.left ≤ maxStepsPerWake := by
  unfold left
  split <;> omega

/-- One step takes a pass from those that are left if it begins one, and adds none. -/
theorem Step.left (hstep : Step P s s') (hcancelled : s'.cancelled = true) :
    (Begins s s' → s'.left < s.left) ∧ s'.left ≤ s.left := by
  have hquiet : s'.left = 0 → s'.state.task = s.state.task →
      (Begins s s' → s'.left < s.left) ∧ s'.left ≤ s.left := by
    intro hnone hsame
    refine ⟨fun hbegins => absurd (hsame.trans hbegins.1) hbegins.2, ?_⟩
    rw [hnone]
    exact Nat.zero_le _
  have hsame : s'.left = s.left → s'.state.task = s.state.task →
      (Begins s s' → s'.left < s.left) ∧ s'.left ≤ s.left := by
    intro hleft hsame
    exact ⟨fun hbegins => absurd (hsame.trans hbegins.1) hbegins.2, hleft.le⟩
  cases hstep with
  | polled hwaiting _ =>
    exact hquiet (left_of_phase fun steps hphase => by cases hwaiting.symm.trans hphase) rfl
  | notified | ticked | interrupted | stopped =>
    exact hquiet (left_of_phase fun steps hphase => by cases hphase) rfl
  | entered _ hgoing =>
    rw [show s.cancelled = true from hcancelled] at hgoing
    cases hgoing
  | @called steps hphase hbelow hnone =>
    have hbefore : s.left = maxStepsPerWake - steps := by
      rw [left_stepping hphase, hnone]
      rfl
    have hafter := left_stepping (s := { s with
      state := ⟨s.state.world, some reconcileOnce, []⟩
      seen := [] }) hphase
    simp only [Option.isSome_some, if_true] at hafter
    rw [hbefore, hafter]
    constructor
    · intro _
      omega
    · omega
  | awaited hphase hdaemon hlabel =>
    obtain
      ⟨⟨world, task, log⟩, phase, waiter, cancelled, inFlight, committed, woken, seen, last⟩ := s
    rcases hlabel with rfl | rfl
    · cases hdaemon with
      | perform =>
        refine ⟨fun hbegins => (by cases hbegins.1), ?_⟩
        exact Nat.le_refl _
    · cases hdaemon with
      | fault =>
        refine ⟨fun hbegins => (by cases hbegins.1), ?_⟩
        exact Nat.le_refl _
  | @returned steps result hphase hdone =>
    have hbefore : s.left = maxStepsPerWake - steps - 1 := by
      rw [left_stepping hphase, hdone]
      rfl
    refine ⟨fun hbegins => absurd rfl hbegins.2, ?_⟩
    rw [hbefore]
    cases result with
    | error error => exact Nat.zero_le _
    | ok result =>
      cases result with
      | progress =>
        show maxStepsPerWake - (steps + 1) - 0 ≤ _
        omega
      | idle => exact Nat.zero_le _
  | limited => exact hquiet (left_of_phase fun steps hphase => by cases hphase) rfl
  | commit | wake | cancel | drift => exact hsame rfl rfl
  | crash => cases hcancelled

/-- Along a run the passes that begin are taken from those that were left. -/
theorem Stopping.bounded (h : Stopping P s count s') : count + s'.left ≤ s.left := by
  induction h with
  | refl => omega
  | other _ hstep hcancelled _ ih =>
    have hless := (hstep.left hcancelled).2
    omega
  | pass _ hstep hcancelled hbegins ih =>
    have hless := (hstep.left hcancelled).1 hbegins
    omega

theorem Stopping.reachable (h : Stopping P s count s') (hreachable : Reachable P provider s) :
    Reachable P provider s' := by
  induction h with
  | refl => exact hreachable
  | other _ hstep _ _ ih => exact ih.tail hstep
  | pass _ hstep _ _ ih => exact ih.tail hstep

/-- Once the token is cancelled, whatever the handlers, faults and wake-ups do, at most the passes
    of one turn begin before the loop returns, none if it is not in a turn, and when it has
    returned no pass is in progress. -/
theorem shutdown_is_prompt (h : Reachable P provider s) (hrun : Stopping P s count s') :
    count ≤ maxStepsPerWake ∧ ((∀ steps, s.phase ≠ .stepping steps) → count = 0) ∧
      (s'.phase = .stopped → s'.state.task = none) := by
  have hbounded := hrun.bounded
  refine ⟨?_, fun hphase => ?_, fun hstopped => ?_⟩
  · have hmost := left_le (s := s)
    omega
  · rw [left_of_phase hphase] at hbounded
    omega
  · refine (alert_of_reachable (hrun.reachable h)).task_none fun steps hstepping => ?_
    rw [hstopped] at hstepping
    cases hstepping

/-- A loop that is told to stop when it has entered a turn begins one more pass. -/
theorem prompt_of_entered : ∃ s s' : Service Script, Stopping Script.model s 1 s' ∧
    1 ≤ maxStepsPerWake ∧ (s'.phase = .stopped → s'.state.task = none) := by
  obtain ⟨s, hentered, hphase, hnone, hcancelled⟩ : ∃ s, Reachable Script.model Script.willing s ∧
      s.phase = .stepping 0 ∧ s.state.task = none ∧ s.cancelled = true :=
    ⟨_, ((Relation.ReflTransGen.single (Step.notified rfl rfl)).tail (Step.entered rfl rfl)).tail
      Step.cancel, rfl, rfl, rfl⟩
  have hrun : Stopping Script.model s 1 _ := Stopping.pass (Stopping.refl hcancelled)
    (Step.called hphase (by decide) hnone) hcancelled ⟨hnone, fun hnone => by cases hnone⟩
  obtain ⟨hcount, -, hstopped⟩ := shutdown_is_prompt hentered hrun
  exact ⟨s, _, hrun, hcount, hstopped⟩

end ControlPlane.Service
