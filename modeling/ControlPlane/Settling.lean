import Mathlib.Algebra.BigOperators.Group.Finset.Basic
import Mathlib.Algebra.Order.BigOperators.Group.Finset
import Mathlib.Logic.Function.Iterate

/-!
# Agents that come to rest

Every agent is at some place of a path that ends. A round moves one agent, whichever it is, to its
next place. Then no order of the rounds matters: each agent ends where its own path ends, and the
rounds are as many as there were places to go.
-/

namespace ControlPlane

/-- Places with a path from each to its end, so many steps away. -/
structure Countdown (τ : Type) where
  steps : τ → ℕ
  next : τ → τ
  steps_next : ∀ place, steps place ≠ 0 → steps (next place) + 1 = steps place

namespace Countdown

variable {κ τ : Type} (path : Countdown τ) {place : τ}

/-- The end of the path from a place. -/
def settled (place : τ) : τ :=
  path.next^[path.steps place] place

theorem settled_of_steps (h : path.steps place = 0) : path.settled place = place := by
  unfold settled
  rw [h]
  rfl

theorem settled_next (h : path.steps place ≠ 0) :
    path.settled (path.next place) = path.settled place := by
  unfold settled
  rw [← path.steps_next place h]
  rfl

variable [DecidableEq κ]

/-- Some rounds, one after the other. -/
inductive Rounds (start : κ → τ) : ℕ → (κ → τ) → Prop where
  | none : Rounds start 0 start
  | advance {count before} (agent : κ) : Rounds start count before →
      path.steps (before agent) ≠ 0 →
      Rounds start (count + 1) (Function.update before agent (path.next (before agent)))

namespace Rounds

variable {path} {start after : κ → τ} {count : ℕ}

/-- No agent leaves its path. -/
theorem settled (h : path.Rounds start count after) (agent : κ) :
    path.settled (after agent) = path.settled (start agent) := by
  induction h with
  | none => rfl
  | @advance count before mover _ hsteps ih =>
    by_cases hmover : agent = mover
    · subst hmover
      rw [Function.update_self, path.settled_next hsteps, ih]
    · rw [Function.update_of_ne hmover, ih]

/-- Every round is one step of one agent. -/
theorem total (h : path.Rounds start count after) {agents : Finset κ}
    (hothers : ∀ agent, agent ∉ agents → path.steps (start agent) = 0) :
    (∀ agent, agent ∉ agents → after agent = start agent) ∧
      ∑ agent ∈ agents, path.steps (after agent) + count =
        ∑ agent ∈ agents, path.steps (start agent) := by
  induction h with
  | none => exact ⟨fun _ _ => rfl, rfl⟩
  | @advance count before mover _ hsteps ih =>
    obtain ⟨hkept, hsum⟩ := ih
    have hmem : mover ∈ agents := by
      by_contra hnot
      apply hsteps
      rw [hkept mover hnot]
      exact hothers mover hnot
    refine ⟨fun agent hnot => ?_, ?_⟩
    · have hne : agent ≠ mover := fun heq => hnot (heq ▸ hmem)
      rw [Function.update_of_ne hne, hkept agent hnot]
    · rw [← Finset.add_sum_erase _ _ hmem] at hsum ⊢
      have hrest : ∑ agent ∈ agents.erase mover,
          path.steps (Function.update before mover (path.next (before mover)) agent) =
            ∑ agent ∈ agents.erase mover, path.steps (before agent) := by
        refine Finset.sum_congr rfl fun agent hagent => ?_
        rw [Function.update_of_ne (Finset.ne_of_mem_erase hagent)]
      rw [Function.update_self, hrest]
      have hstep := path.steps_next (before mover) hsteps
      omega

/-- The rounds are bounded by the lengths of the paths. -/
theorem count_le (h : path.Rounds start count after) {agents : Finset κ} {bound : ℕ}
    (hothers : ∀ agent, agent ∉ agents → path.steps (start agent) = 0)
    (hbound : ∀ place, path.steps place ≤ bound) : count ≤ bound * agents.card := by
  have hsum := (h.total hothers).2
  calc
    count ≤ ∑ agent ∈ agents, path.steps (start agent) := by omega
    _ ≤ agents.card • bound := Finset.sum_le_card_nsmul _ _ _ fun agent _ => hbound (start agent)
    _ = bound * agents.card := Nat.mul_comm _ _

end Rounds

end Countdown

end ControlPlane
