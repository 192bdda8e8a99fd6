import SentinelCommand.Lib.Gregorian

/-
  What the datetimes of `pydatetime.rs` and `models.rs` use of
  `chrono`, as a parameter with what its documentation says,
  and the calendar as one such parameter.

  Key definitions include:
    * `Chrono`
    * `Chrono.Documented`

  Correctness is proven by:
    * `Chrono.gregorian_documented`
-/

--------------------
-- Dates and Times
--------------------

namespace SentinelCommand

open Gregorian

/- The padding of a format such as `{:06}`. -/
def zeroPadded (width number : Nat) : List Char :=
  (Nat.toDigits 10 number).leftpad width '0'

/-
  `NaiveDate` and `NaiveDateTime`. A sum out of range is a
  panic, which is none here; `format` is the one with the
  format `%Y-%m-%dT%H:%M:%S`.
-/
structure Chrono (Date DateTime : Type) where
  fromYmdOpt : Int → Nat → Nat → Option Date
  year : Date → Int
  month : Date → Nat
  day : Date → Nat
  numDaysFromMonday : Date → Nat
  addDays : Date → Int → Option Date
  andHmsMicroOpt : Date → Nat → Nat → Nat → Nat → Option DateTime
  date : DateTime → Date
  hour : DateTime → Nat
  minute : DateTime → Nat
  second : DateTime → Nat
  nanosecond : DateTime → Nat
  format : DateTime → List Char

namespace Chrono

variable {Date DateTime : Type}

def dayNumber (chrono : Chrono Date DateTime) (date : Date) : Int :=
  Gregorian.dayNumber (chrono.year date) (chrono.month date)
    (chrono.day date)

def minYear : Int := -262143

def maxYear : Int := 262142

def firstDay : Int :=
  Gregorian.dayNumber minYear 1 1

def lastDay : Int :=
  Gregorian.dayNumber maxYear 12 31

/-
  Dates are those of the Gregorian calendar in a range of
  years, told apart by their fields; the nanoseconds of a leap
  second go beyond a thousand million.
-/
structure Documented (chrono : Chrono Date DateTime) : Prop where
  isDate :
    ∀ date,
      IsDate (chrono.year date) (chrono.month date)
        (chrono.day date)
  fromYmdOpt_some :
    ∀ year month day date,
      chrono.fromYmdOpt year month day = some date →
        chrono.year date = year ∧ chrono.month date = month ∧
          chrono.day date = day
  fromYmdOpt_isSome :
    ∀ year month day,
      minYear ≤ year → year ≤ maxYear → IsDate year month day →
        ∃ date, chrono.fromYmdOpt year month day = some date
  date_ext :
    ∀ date other,
      chrono.year date = chrono.year other →
        chrono.month date = chrono.month other →
          chrono.day date = chrono.day other → date = other
  numDaysFromMonday :
    ∀ date,
      (chrono.numDaysFromMonday date : Int) =
        weekday (chrono.dayNumber date)
  addDays :
    ∀ date days,
      firstDay ≤ chrono.dayNumber date + days →
        chrono.dayNumber date + days ≤ lastDay →
          ∃ later,
            chrono.addDays date days = some later ∧
              chrono.dayNumber later =
                chrono.dayNumber date + days
  andHmsMicroOpt :
    ∀ date hour minute second micro,
      hour < 24 → minute < 60 → second < 60 → micro < 1000000 →
        ∃ time,
          chrono.andHmsMicroOpt date hour minute second micro =
              some time ∧
            chrono.date time = date ∧ chrono.hour time = hour ∧
              chrono.minute time = minute ∧
                chrono.second time = second ∧
                  chrono.nanosecond time = 1000 * micro
  hour_lt : ∀ time, chrono.hour time < 24
  minute_lt : ∀ time, chrono.minute time < 60
  second_lt : ∀ time, chrono.second time < 60
  format :
    ∀ time,
      0 ≤ chrono.year (chrono.date time) →
        chrono.year (chrono.date time) ≤ 9999 →
          chrono.nanosecond time < 1000000000 →
            chrono.format time =
              zeroPadded 4 (chrono.year (chrono.date time)).toNat ++
                '-' :: zeroPadded 2 (chrono.month (chrono.date time)) ++
                '-' :: zeroPadded 2 (chrono.day (chrono.date time)) ++
                'T' :: zeroPadded 2 (chrono.hour time) ++
                ':' :: zeroPadded 2 (chrono.minute time) ++
                ':' :: zeroPadded 2 (chrono.second time)

end Chrono

end SentinelCommand

--------------------
-- The Gregorian Calendar
--------------------

namespace SentinelCommand

namespace Chrono

open Gregorian

/- A date with the time of a day. -/
structure Moment where
  date : Gregorian.Date
  hour : Nat
  minute : Nat
  second : Nat
  nanosecond : Nat
  hour_lt : hour < 24
  minute_lt : minute < 60
  second_lt : second < 60

def Moment.format (time : Moment) : List Char :=
  zeroPadded 4 time.date.year.toNat ++
    '-' :: zeroPadded 2 time.date.month ++
    '-' :: zeroPadded 2 time.date.day ++
    'T' :: zeroPadded 2 time.hour ++
    ':' :: zeroPadded 2 time.minute ++
    ':' :: zeroPadded 2 time.second

def dateOf
    (year : Int)
    (month day : Nat) : Option Gregorian.Date :=
  if h : IsDate year month day then
    if minYear ≤ year ∧ year ≤ maxYear then
      some ⟨year, month, day, h⟩
    else
      none
  else
    none

def dateAfter
    (date : Gregorian.Date)
    (days : Int) : Option Gregorian.Date :=
  let later :=
    Gregorian.dayNumber date.year date.month date.day + days
  if firstDay ≤ later ∧ later ≤ lastDay then
    some (ofDay later)
  else
    none

def momentOf
    (date : Gregorian.Date)
    (hour minute second micro : Nat) : Option Moment :=
  if h : hour < 24 ∧ minute < 60 ∧ second < 60 ∧
    (micro < 1000000 ∨ second = 59 ∧ micro < 2000000) then
    some
      { date
        hour
        minute
        second
        nanosecond := 1000 * micro
        hour_lt := h.1
        minute_lt := h.2.1
        second_lt := h.2.2.1 }
  else
    none

def gregorian : Chrono Gregorian.Date Moment :=
  { fromYmdOpt := dateOf
    year := Date.year
    month := Date.month
    day := Date.day
    numDaysFromMonday := fun date =>
      (weekday
        (Gregorian.dayNumber date.year date.month
          date.day)).toNat
    addDays := dateAfter
    andHmsMicroOpt := momentOf
    date := Moment.date
    hour := Moment.hour
    minute := Moment.minute
    second := Moment.second
    nanosecond := Moment.nanosecond
    format := Moment.format }

theorem dateOf_some
    {year : Int}
    {month day : Nat}
    {date : Gregorian.Date}
    (hDate : dateOf year month day = some date) :
    date.year = year ∧ date.month = month ∧ date.day = day := by
  unfold dateOf at hDate
  split at hDate
  · split at hDate
    · cases hDate
      exact ⟨rfl, rfl, rfl⟩
    · cases hDate
  · cases hDate

theorem exists_dateOf
    {year : Int}
    {month day : Nat}
    (hFirst : minYear ≤ year)
    (hLast : year ≤ maxYear)
    (hDate : IsDate year month day) :
    ∃ date, dateOf year month day = some date := by
  rw [dateOf, dif_pos hDate, if_pos ⟨hFirst, hLast⟩]
  exact ⟨_, rfl⟩

theorem exists_dateAfter
    (date : Gregorian.Date)
    {days : Int}
    (hFirst : firstDay ≤ gregorian.dayNumber date + days)
    (hLast : gregorian.dayNumber date + days ≤ lastDay) :
    ∃ later,
      dateAfter date days = some later ∧
        gregorian.dayNumber later =
          gregorian.dayNumber date + days :=
  ⟨_, if_pos ⟨hFirst, hLast⟩, dayNumber_ofDay _⟩

theorem exists_momentOf
    (date : Gregorian.Date)
    {hour minute second micro : Nat}
    (hHour : hour < 24)
    (hMinute : minute < 60)
    (hSecond : second < 60)
    (hMicro : micro < 1000000) :
    ∃ time,
      momentOf date hour minute second micro = some time ∧
        time.date = date ∧ time.hour = hour ∧
          time.minute = minute ∧ time.second = second ∧
            time.nanosecond = 1000 * micro := by
  rw [momentOf,
    dif_pos ⟨hHour, hMinute, hSecond, Or.inl hMicro⟩]
  exact ⟨_, rfl, rfl, rfl, rfl, rfl, rfl⟩

theorem gregorian_documented : gregorian.Documented where
  isDate := Date.isDate
  fromYmdOpt_some := fun _ _ _ _ hDate => dateOf_some hDate
  fromYmdOpt_isSome := fun _ _ _ hFirst hLast hDate =>
    exists_dateOf hFirst hLast hDate
  date_ext := by
    rintro ⟨_, _, _, _⟩ ⟨_, _, _, _⟩ rfl rfl rfl
    rfl
  numDaysFromMonday := by
    intro date
    apply Int.toNat_of_nonneg
    unfold weekday
    omega
  addDays := fun date _ hFirst hLast =>
    exists_dateAfter date hFirst hLast
  andHmsMicroOpt :=
    fun date _ _ _ _ hHour hMinute hSecond hMicro =>
      exists_momentOf date hHour hMinute hSecond hMicro
  hour_lt := Moment.hour_lt
  minute_lt := Moment.minute_lt
  second_lt := Moment.second_lt
  format := fun _ _ _ _ => rfl

end Chrono

end SentinelCommand
