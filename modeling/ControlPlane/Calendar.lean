import ControlPlane.Protocol.Resources
import Mathlib.Order.Monotone.Basic

/-!
# The order of days and of their dates

`Timestamp.civilDate` counts in eras of 400 years that begin in March. A later day has a later
date: the year of the era, the month counted from March and the day of the month are compared one
after the other, and the calendar year and month in the same way.
-/

namespace ControlPlane.Timestamp

/-! ## Years of an era -/

/-- The days of an era without its leap days. -/
def commonDays (dayOfEra : Nat) : Nat :=
  dayOfEra - dayOfEra / 1460 + dayOfEra / 36524 - dayOfEra / 146096

/-- The year of the era of a day. -/
def yearOfEra (dayOfEra : Nat) : Nat :=
  commonDays dayOfEra / 365

/-- The day an era's year begins with. -/
def yearStart (year : Nat) : Nat :=
  365 * year + year / 4 - year / 100

theorem commonDays_mono : Monotone commonDays := by
  apply monotone_nat_of_le_succ
  intro day
  unfold commonDays
  omega

/-- The first day of a year is in it, and the day before is not. -/
theorem commonDays_yearStart : ∀ year < 400,
    365 * year ≤ commonDays (yearStart year) ∧
      (0 < year → commonDays (yearStart year - 1) < 365 * year) := by
  decide +kernel

theorem yearOfEra_lt {day : Nat} (h : day < 146097) : yearOfEra day < 400 := by
  unfold yearOfEra commonDays
  omega

theorem yearOfEra_mono {day later : Nat} (h : day ≤ later) : yearOfEra day ≤ yearOfEra later :=
  Nat.div_le_div_right (commonDays_mono h)

/-- A day is not before the year it is in. -/
theorem yearStart_le {day : Nat} (h : day < 146097) : yearStart (yearOfEra day) ≤ day := by
  by_contra hbefore
  have hyear : 365 * yearOfEra day ≤ commonDays day := Nat.mul_div_le _ _
  by_cases hzero : yearOfEra day = 0
  · rw [hzero] at hbefore
    exact hbefore (Nat.zero_le _)
  · have hlast := (commonDays_yearStart _ (yearOfEra_lt h)).2 (Nat.pos_of_ne_zero hzero)
    have hmono := commonDays_mono (show day ≤ yearStart (yearOfEra day) - 1 by omega)
    omega

/-- A year has at most 366 days. -/
theorem sub_yearStart_le {day : Nat} (h : day < 146097) :
    day - yearStart (yearOfEra day) ≤ 365 := by
  have hlt := yearOfEra_lt h
  have hyear : commonDays day < 365 * (yearOfEra day + 1) := Nat.lt_mul_div_succ _ (by decide)
  by_cases hlast : yearOfEra day = 399
  · rw [hlast]
    have hstart : yearStart 399 = 145731 := by decide
    omega
  · have hnext := (commonDays_yearStart (yearOfEra day + 1) (by omega)).1
    have hbefore : day < yearStart (yearOfEra day + 1) := by
      by_contra hnot
      have hmono := commonDays_mono (Nat.le_of_not_lt hnot)
      omega
    unfold yearStart at hbefore ⊢
    omega

/-! ## Dates -/

/-- The day of the year that begins in March. -/
def dayOfYear (dayOfEra : Nat) : Nat :=
  dayOfEra - yearStart (yearOfEra dayOfEra)

/-- The month counted from March. -/
def shiftedMonth (dayOfYear : Nat) : Nat :=
  (5 * dayOfYear + 2) / 153

/-- The era of a day, and the day of that era. -/
def eraOf (days : Int) : Int × Nat :=
  ((days + 719468).fdiv 146097, ((days + 719468).fmod 146097).toNat)

/-- The calendar month of a month counted from March. -/
def calendarMonth (month : Nat) : Nat :=
  if month < 10 then month + 3 else month - 9

theorem civilDate_eq (days : Int) :
    civilDate days =
      let day := dayOfYear (eraOf days).2
      let month := shiftedMonth day
      (yearOfEra (eraOf days).2 + (eraOf days).1 * 400 +
          (if calendarMonth month ≤ 2 then 1 else 0),
        calendarMonth month, day - (153 * month + 2) / 5 + 1) := rfl

theorem eraOf_spec (days : Int) :
    days + 719468 = 146097 * (eraOf days).1 + (eraOf days).2 ∧ (eraOf days).2 < 146097 := by
  have hdiv := Int.fdiv_eq_ediv_of_nonneg (days + 719468) (show (0 : Int) ≤ 146097 by decide)
  have hmod := Int.fmod_eq_emod_of_nonneg (days + 719468) (show (0 : Int) ≤ 146097 by decide)
  unfold eraOf
  rw [hdiv, hmod]
  omega

theorem shiftedMonth_lt {day : Nat} (h : day < 146097) : shiftedMonth (dayOfYear day) < 12 := by
  have hle := sub_yearStart_le h
  unfold shiftedMonth dayOfYear
  omega

/-- Months and days of the month are two digits. -/
theorem civilDate_bounds (days : Int) :
    1 ≤ (civilDate days).2.1 ∧ (civilDate days).2.1 ≤ 12 ∧ (civilDate days).2.2 ≤ 31 := by
  have hmonth := shiftedMonth_lt (eraOf_spec days).2
  rw [civilDate_eq]
  dsimp only
  generalize dayOfYear (eraOf days).2 = day at hmonth ⊢
  unfold calendarMonth
  unfold shiftedMonth at hmonth ⊢
  split <;> omega

/-- One date is before another. -/
def DateBefore (first second : Int × Nat × Nat) : Prop :=
  first.1 < second.1 ∨ first.1 = second.1 ∧
    (first.2.1 < second.2.1 ∨ first.2.1 = second.2.1 ∧ first.2.2 < second.2.2)

/-- Dates with years that begin in March compare as calendar dates. -/
theorem dateBefore_of_shifted {year year' : Int} {month month' day day' : Nat}
    (hmonth : month < 12) (hmonth' : month' < 12)
    (h : year < year' ∨ year = year' ∧ (month < month' ∨ month = month' ∧ day < day')) :
    DateBefore (year + (if calendarMonth month ≤ 2 then 1 else 0), calendarMonth month, day)
      (year' + (if calendarMonth month' ≤ 2 then 1 else 0), calendarMonth month', day') := by
  unfold DateBefore calendarMonth
  dsimp only
  split <;> split <;> split <;> split <;> omega

/-- A later day has a later date. -/
theorem civilDate_before {days later : Int} (h : days < later) :
    DateBefore (civilDate days) (civilDate later) := by
  obtain ⟨hdays, hday⟩ := eraOf_spec days
  obtain ⟨hlater, hday'⟩ := eraOf_spec later
  rw [civilDate_eq, civilDate_eq]
  apply dateBefore_of_shifted (shiftedMonth_lt hday) (shiftedMonth_lt hday')
  have hyear := yearOfEra_lt hday
  generalize (eraOf days).1 = era, (eraOf later).1 = era' at *
  by_cases hera : era = era'
  · have hlt : (eraOf days).2 < (eraOf later).2 := by omega
    have hmono := yearOfEra_mono hlt.le
    by_cases hsame : yearOfEra (eraOf days).2 = yearOfEra (eraOf later).2
    · -- in one year, the day of the year decides
      have hstart := yearStart_le hday
      have hdayLt : dayOfYear (eraOf days).2 < dayOfYear (eraOf later).2 := by
        unfold dayOfYear
        rw [hsame] at hstart ⊢
        omega
      refine .inr ⟨by omega, ?_⟩
      unfold shiftedMonth
      omega
    · exact .inl (by omega)
  · exact .inl (by omega)

end ControlPlane.Timestamp
