import Mathlib.Logic.Basic

/-!
# A notification with one waiting task

The state of a `Notify` that any number of tasks notify and one task waits on. `notifyOne` stores
one permit when nobody waits, and a waiting future that is dropped passes its notification on.
-/

namespace ControlPlane.Interaction

/-- The future the waiting task polls. -/
inductive Waiter where
  | unpolled
  | registered
  | notified
  deriving DecidableEq

/-- The stored permit and the waiting future. -/
structure Notify where
  permit : Bool
  waiter : Waiter
  deriving DecidableEq

namespace Notify

/-- `notify_one`. -/
def notifyOne (notify : Notify) : Notify :=
  match notify.waiter with
  | .registered => { notify with waiter := .notified }
  | _ => { notify with permit := true }

/-- Poll the future: whether it is ready. One that is ready is used up. -/
def poll (notify : Notify) : Bool × Notify :=
  match notify.waiter, notify.permit with
  | .notified, _ => (true, { notify with waiter := .unpolled })
  | _, true => (true, ⟨false, .unpolled⟩)
  | _, false => (false, ⟨false, .registered⟩)

/-- Drop the future. -/
def dropped (notify : Notify) : Notify :=
  match notify.waiter with
  | .notified => ⟨true, .unpolled⟩
  | _ => { notify with waiter := .unpolled }

/-- There is a permit that is not used up: stored, or handed to the waiting future. -/
def Pending (notify : Notify) : Prop :=
  notify.permit = true ∨ notify.waiter = .notified

instance (notify : Notify) : Decidable notify.Pending :=
  inferInstanceAs (Decidable (_ ∨ _))

theorem pending_notifyOne (notify : Notify) : notify.notifyOne.Pending := by
  obtain ⟨permit, waiter⟩ := notify
  cases waiter <;> simp [notifyOne, Pending]

@[simp] theorem waiter_dropped (notify : Notify) : notify.dropped.waiter = .unpolled := by
  obtain ⟨permit, waiter⟩ := notify
  cases waiter <;> rfl

/-- A future is ready when there is a notification for it, and only then. -/
theorem poll_ready {notify : Notify} : notify.poll.1 = true ↔ notify.Pending := by
  obtain ⟨permit, waiter⟩ := notify
  cases waiter <;> cases permit <;> simp [poll, Pending]

theorem waiter_of_poll_ready {notify : Notify} (h : notify.poll.1 = true) :
    notify.poll.2.waiter = .unpolled := by
  obtain ⟨permit, waiter⟩ := notify
  cases waiter <;> cases permit <;> first | rfl | cases h

/-- While nobody waits, `notifyOne` stores a permit. -/
theorem notifyOne_of_unpolled {notify : Notify} (h : notify.waiter = .unpolled) :
    notify.notifyOne = ⟨true, .unpolled⟩ := by
  obtain ⟨permit, waiter⟩ := notify
  cases h
  rfl

end Notify

end ControlPlane.Interaction
