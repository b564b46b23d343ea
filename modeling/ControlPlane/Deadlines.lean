import ControlPlane.Domain
import Mathlib.Tactic.IntervalCases

/-!
# Retry deadlines

The saturating arithmetic of `retry_deadline` and of the fixed one-second delays, over the
integers: how far away a deadline is, and that it lies ahead of the clock unless the clock has
reached `i64::MAX`.
-/

namespace ControlPlane

variable {now delay : Int64} {attempt : UInt32}

/-- A saturating sum is the exact sum, cut off at both ends of the type. -/
theorem toInt_saturatingAdd (a b : Int64) :
    (saturatingAdd a b).toInt =
      max Int64.minValue.toInt (min Int64.maxValue.toInt (a.toInt + b.toInt)) := by
  unfold saturatingAdd
  have hmin : Int64.minValue.toInt = -2 ^ 63 := Int64.toInt_minValue
  have hmax : Int64.maxValue.toInt = 2 ^ 63 - 1 := Int64.toInt_maxValue
  rw [Int64.toInt_ofInt_of_le] <;> omega

/-- The delay of `retry_deadline`. -/
def retryDelay (attempt : UInt32) : Int64 :=
  min (saturatingMul 1000 (1 <<< Int64.ofNat (min attempt.toNat 6))) 60000

theorem retryDeadline_eq : retryDeadline now attempt = saturatingAdd now (retryDelay attempt) := rfl

/-- The delay doubles with each attempt, from one second, up to a minute; neither the shift nor
    the product overflows. -/
theorem toInt_retryDelay (attempt : UInt32) :
    (retryDelay attempt).toInt = min (1000 * 2 ^ min attempt.toNat 6) 60000 := by
  unfold retryDelay
  have hle : min attempt.toNat 6 ≤ 6 := Nat.min_le_right _ _
  revert hle
  generalize min attempt.toNat 6 = exponent
  intro hle
  interval_cases exponent <;> decide

theorem retryDelay_bounds (attempt : UInt32) :
    1000 ≤ (retryDelay attempt).toInt ∧ (retryDelay attempt).toInt ≤ 60000 := by
  rw [toInt_retryDelay]
  have hpos : (0 : Int) < 2 ^ min attempt.toNat 6 := Int.pow_pos (by decide)
  omega

/-- The attempts end at the largest one. -/
theorem toNat_nextAttempt (attempt : UInt32) :
    (nextAttempt attempt).toNat = min (attempt.toNat + 1) 4294967295 := by
  unfold nextAttempt
  have hlt := UInt32.toNat_lt attempt
  split
  · rename_i hmax
    rw [hmax]
    decide
  · rename_i hmax
    have hne : attempt.toNat ≠ 4294967295 := fun heq => hmax (UInt32.toNat_inj.mp heq)
    rw [UInt32.toNat_add]
    have hone : (1 : UInt32).toNat = 1 := rfl
    omega

/-- A positive delay leads past the clock, unless the clock cannot go on. -/
theorem eq_maxValue_of_saturatingAdd_le (hdelay : 0 < delay.toInt)
    (h : saturatingAdd now delay ≤ now) : now = Int64.maxValue := by
  rw [Int64.le_iff_toInt_le, toInt_saturatingAdd] at h
  have hmin := Int64.minValue_le_toInt now
  have hmax := Int64.toInt_le now
  apply Int64.toInt_inj.mp
  omega

theorem eq_maxValue_of_retryDeadline_le (h : retryDeadline now attempt ≤ now) :
    now = Int64.maxValue := by
  have hbounds := retryDelay_bounds attempt
  rw [retryDeadline_eq] at h
  exact eq_maxValue_of_saturatingAdd_le (by omega) h

/-- A delay of a minute at most ends within a minute. -/
theorem toInt_saturatingAdd_of_le (hdelay : 0 ≤ delay.toInt) (hminute : delay.toInt ≤ 60000)
    (hnow : now.toInt ≤ Int64.maxValue.toInt - 60000) :
    (saturatingAdd now delay).toInt = now.toInt + delay.toInt := by
  rw [toInt_saturatingAdd]
  have hmin := Int64.minValue_le_toInt now
  omega

end ControlPlane
