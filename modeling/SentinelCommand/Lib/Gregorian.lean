import Mathlib.Tactic.SplitIfs
import SentinelCommand.Lib.Calendar

/-
  Dates of the Gregorian calendar, which extends to all years,
  and the days that they stand for.

  Key definitions include:
    * `Gregorian.IsDate`
    * `Gregorian.dayNumber`, `Gregorian.ofDay`
    * `Gregorian.weekday`

  Key theorems include:
    * `Gregorian.monthStart_succ`
    * `Gregorian.isDate_of_day`
    * `Gregorian.dayNumber_ofDay`
-/

--------------------
-- Dates
--------------------

namespace Gregorian

open Calendar

def IsLeap (year : Int) : Prop :=
  year % 4 = 0 ∧ (year % 100 ≠ 0 ∨ year % 400 = 0)

instance (year : Int) : Decidable (IsLeap year) :=
  inferInstanceAs (Decidable (_ ∧ _))

def monthLength (year : Int) (month : Nat) : Nat :=
  if month = 2 then
    if IsLeap year then 29 else 28
  else if month = 4 ∨ month = 6 ∨ month = 9 ∨ month = 11 then
    30
  else
    31

def IsDate (year : Int) (month day : Nat) : Prop :=
  1 ≤ month ∧ month ≤ 12 ∧ 1 ≤ day ∧ day ≤ monthLength year month

instance (year : Int) (month day : Nat) :
    Decidable (IsDate year month day) :=
  inferInstanceAs (Decidable (_ ∧ _))

structure Date where
  year : Int
  month : Nat
  day : Nat
  isDate : IsDate year month day

/- Months are counted from March of the year zero. -/
def monthNumber (year : Int) (month : Nat) : Int :=
  12 * year + month - 3

/- Days are counted from the first one of 1970. -/
def dayNumber (year : Int) (month day : Nat) : Int :=
  monthStart (monthNumber year month) + day - 1

/- The first day of 1970 is a Thursday. -/
def weekday (day : Int) : Int :=
  (day + 3) % 7

theorem monthLength_le (year : Int) (month : Nat) :
    monthLength year month ≤ 31 := by
  unfold monthLength
  split_ifs
  all_goals omega

/- A month is as long as the calendar says. -/
theorem monthStart_succ
    (year : Int)
    {month : Nat}
    (hFirst : 1 ≤ month)
    (hLast : month ≤ 12) :
    monthStart (monthNumber year month + 1) =
      monthStart (monthNumber year month) +
        monthLength year month := by
  unfold monthStart monthNumber
  dsimp only
  by_cases hFebruary : month = 2
  · rw [hFebruary]
    by_cases hLeap : IsLeap year
    · have hLength : monthLength year 2 = 29 := if_pos hLeap
      rw [hLength]
      unfold IsLeap at hLeap
      omega
    · have hLength : monthLength year 2 = 28 := if_neg hLeap
      rw [hLength]
      unfold IsLeap at hLeap
      omega
  · by_cases hShort :
      month = 4 ∨ month = 6 ∨ month = 9 ∨ month = 11
    · have hLength : monthLength year month = 30 := by
        rw [monthLength, if_neg hFebruary, if_pos hShort]
      rw [hLength]
      rcases hShort with rfl | rfl | rfl | rfl
      all_goals omega
    · have hLength : monthLength year month = 31 := by
        rw [monthLength, if_neg hFebruary, if_neg hShort]
      have hLong :
          month = 1 ∨ month = 3 ∨ month = 5 ∨ month = 7 ∨
            month = 8 ∨ month = 10 ∨ month = 12 := by
        omega
      rw [hLength]
      rcases hLong with rfl | rfl | rfl | rfl | rfl | rfl | rfl
      all_goals omega

def yearOf (day : Int) : Int :=
  (monthOf day + 2) / 12

def monthInYear (day : Int) : Nat :=
  ((monthOf day + 2) % 12).toNat + 1

def dayInMonth (day : Int) : Nat :=
  (day - monthStart (monthOf day)).toNat + 1

theorem monthNumber_of_day (day : Int) :
    monthNumber (yearOf day) (monthInYear day) = monthOf day := by
  unfold monthNumber yearOf monthInYear
  omega

theorem isDate_of_day (day : Int) :
    IsDate (yearOf day) (monthInYear day) (dayInMonth day) := by
  have hFirst : 1 ≤ monthInYear day := by
    unfold monthInYear
    omega
  have hLast : monthInYear day ≤ 12 := by
    unfold monthInYear
    omega
  have hLength := monthStart_succ (yearOf day) hFirst hLast
  rw [monthNumber_of_day] at hLength
  have hLow := monthStart_monthOf_le day
  have hHigh := lt_monthStart_monthOf day
  refine ⟨hFirst, hLast, ?_, ?_⟩
  · unfold dayInMonth
    omega
  · unfold dayInMonth
    omega

def ofDay (day : Int) : Date :=
  { year := yearOf day
    month := monthInYear day
    day := dayInMonth day
    isDate := isDate_of_day day }

theorem dayNumber_ofDay (day : Int) :
    dayNumber (ofDay day).year (ofDay day).month (ofDay day).day =
      day := by
  have hLow := monthStart_monthOf_le day
  change monthStart
    (monthNumber (yearOf day) (monthInYear day)) +
      (dayInMonth day : Nat) - 1 = day
  rw [monthNumber_of_day]
  unfold dayInMonth
  omega

/- The first days of the years of four digits. -/
theorem dayNumber_first_bounds
    {year : Int}
    (hFirst : 1 ≤ year)
    (hLast : year ≤ 9999) :
    -719162 ≤ dayNumber year 1 1 ∧
      dayNumber year 1 1 ≤ 2932532 := by
  unfold dayNumber monthStart monthNumber
  dsimp only
  omega

end Gregorian
