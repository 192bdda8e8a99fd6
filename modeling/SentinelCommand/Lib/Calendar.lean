import Mathlib.Data.Int.Basic

/-
  Months of the Gregorian calendar, as numbers.

  Days are counted from the epoch of 1970, and months from
  March of the year zero, so that the leap day is the last
  day of a year of twelve months. The calendar extends to all
  integers in both directions.

  Key definitions include:
    * `Calendar.monthStart`
    * `Calendar.monthOf`

  Key theorems include:
    * `Calendar.monthStart_lt_iff`
    * `Calendar.monthOf_eq_iff`
    * `Calendar.monthOf_eq_of_le`
-/

--------------------
-- First Days
--------------------

namespace Calendar

/- The first day of a month. -/
def monthStart (month : Int) : Int :=
  let year := month / 12
  let part := month % 12
  365 * year + year / 4 - year / 100 + year / 400 +
    (153 * part + 2) / 5 - 719468

/- No month is empty. -/
theorem monthStart_lt_succ (month : Int) :
    monthStart month < monthStart (month + 1) := by
  unfold monthStart
  dsimp only
  by_cases hLast : month % 12 = 11
  · have hYear : (month + 1) / 12 = month / 12 + 1 := by omega
    have hPart : (month + 1) % 12 = 0 := by omega
    rw [hYear, hPart, hLast]
    omega
  · have hYear : (month + 1) / 12 = month / 12 := by omega
    have hPart : (month + 1) % 12 = month % 12 + 1 := by omega
    rw [hYear, hPart]
    omega

theorem monthStart_lt_add
    (month : Int)
    (more : Nat) :
    monthStart month < monthStart (month + 1 + more) := by
  induction more with
  | zero =>
      rw [Int.natCast_zero, Int.add_zero]
      exact monthStart_lt_succ month
  | succ more ih =>
      have hNext := monthStart_lt_succ (month + 1 + more)
      rw [Int.natCast_succ, ← Int.add_assoc]
      omega

/- Months and their first days are in the same order. -/
theorem monthStart_lt_iff
    (month other : Int) :
    monthStart month < monthStart other ↔ month < other := by
  constructor
  · intro hStart
    rcases Int.lt_trichotomy month other with
      hBefore | hSame | hAfter
    · exact hBefore
    · subst hSame
      omega
    · rcases Int.le.dest hAfter with ⟨more, rfl⟩
      have hMore := monthStart_lt_add other more
      omega
  · intro hBefore
    rcases Int.le.dest hBefore with ⟨more, rfl⟩
    exact monthStart_lt_add month more

/-
  Four hundred years have 4800 months and 146097 days, and
  no month is far from where the average puts it.
-/
theorem monthStart_ge (month : Int) :
    146097 * (month - 1) ≤
      4800 * (monthStart month + 719468) := by
  unfold monthStart
  dsimp only
  omega

theorem monthStart_le (month : Int) :
    4800 * (monthStart month + 719468) ≤
      146097 * (month + 1) := by
  unfold monthStart
  dsimp only
  omega

/- The average is off by at most one month. -/
def monthOf (day : Int) : Int :=
  let guess := (day + 719468) * 4800 / 146097
  if day < monthStart guess then
    guess - 1
  else if day < monthStart (guess + 1) then
    guess
  else
    guess + 1

theorem monthStart_monthOf_le (day : Int) :
    monthStart (monthOf day) ≤ day := by
  unfold monthOf
  dsimp only
  have hGuess :=
    monthStart_le ((day + 719468) * 4800 / 146097 - 1)
  split
  · omega
  · split
    · omega
    · omega

theorem lt_monthStart_monthOf (day : Int) :
    day < monthStart (monthOf day + 1) := by
  unfold monthOf
  dsimp only
  have hGuess :=
    monthStart_ge ((day + 719468) * 4800 / 146097 + 2)
  split
  · rename_i hBefore
    rw [Int.sub_add_cancel]
    exact hBefore
  · split
    · rename_i hBefore
      exact hBefore
    · have hSucc :
          (day + 719468) * 4800 / 146097 + 1 + 1 =
            (day + 719468) * 4800 / 146097 + 2 := by
        omega
      rw [hSucc]
      omega

/- A month is the days from its first to the next one's. -/
theorem monthOf_eq_iff
    (day month : Int) :
    monthOf day = month ↔
      monthStart month ≤ day ∧
        day < monthStart (month + 1) := by
  constructor
  · rintro rfl
    exact ⟨monthStart_monthOf_le day,
      lt_monthStart_monthOf day⟩
  · rintro ⟨hFirst, hLast⟩
    have hLow := monthStart_monthOf_le day
    have hHigh := lt_monthStart_monthOf day
    have hAbove : monthOf day < month + 1 :=
      (monthStart_lt_iff _ _).mp (by omega)
    have hBelow : month < monthOf day + 1 :=
      (monthStart_lt_iff _ _).mp (by omega)
    omega

/- The days from the first of a month are of that month. -/
theorem monthOf_eq_of_le
    {day later : Int}
    (hFirst : monthStart (monthOf later) ≤ day)
    (hLater : day ≤ later) :
    monthOf day = monthOf later := by
  apply (monthOf_eq_iff day (monthOf later)).mpr
  have hHigh := lt_monthStart_monthOf later
  omega

end Calendar
