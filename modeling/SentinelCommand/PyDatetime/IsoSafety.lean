import Mathlib.Algebra.Order.Ring.Int
import SentinelCommand.PyDatetime.IsoFormat

/-
  `fromisoformat` does not panic, and what it returns is a
  datetime of a year of at most four digits with an offset
  within a day.

  A position moves by as many bytes as there are digits, and a
  loop of fields ends before the end of what it reads. The
  separator is negative for one length only, and there the day
  of the week is missing.

  Key definitions include:
    * `PyDatetime.Bounded`
    * `PyDatetime.ValidDatetime`

  Correctness is proven by:
    * `PyDatetime.safe_isoToYmd`
    * `PyDatetime.safe_parseIsoformatTime`
-/

--------------------
-- Digits
--------------------

namespace SentinelCommand

namespace PyDatetime

open Panics

theorem safe_parseDigits
    {E : Type}
    (s : List UInt8)
    (width : Nat)
    {numDigits : Nat}
    (hWidth : width + numDigits ≤ 9)
    {pos : Nat}
    {var : Int}
    (hVar : 0 ≤ var)
    (hBound : var < 10 ^ width) :
    Safe
      (fun parsed =>
        ∀ p v, parsed = some (p, v) →
          p = pos + numDigits ∧ 0 ≤ v ∧
            v < 10 ^ (width + numDigits))
      (parseDigits s numDigits pos var : Res E _) := by
  induction numDigits generalizing pos var width with
  | zero =>
      intro p v hParsed
      cases hParsed
      exact ⟨rfl, hVar, hBound⟩
  | succ numDigits ih =>
      rw [parseDigits]
      by_cases hOther : byteAt s pos - byte '0' > 9
      · rw [if_pos hOther]
        intro p v hParsed
        cases hParsed
      · rw [if_neg hOther]
        have hDigit : (byteAt s pos - byte '0').toNat ≤ 9 :=
          UInt8.le_iff_toNat_le.mp (UInt8.not_lt.mp hOther)
        have hPow : (10 : Int) ^ (width + 1) = 10 ^ width * 10 :=
          pow_succ 10 width
        have hNine : (10 : Int) ^ (width + 1) ≤ 10 ^ 9 :=
          pow_le_pow_right₀ (by omega) (by omega)
        have hNumber : (10 : Int) ^ 9 = 1000000000 := by
          rfl
        apply (safe_i32 (by omega) (by omega)).bind
        rintro scaled rfl
        apply (safe_i32 (by omega) (by omega)).bind
        rintro next rfl
        have hWidthNext : width + 1 + numDigits ≤ 9 := by omega
        apply (ih (width + 1) hWidthNext (by omega) (by omega)).mono
        intro parsed hParsed p v hSome
        have hResult := hParsed p v hSome
        have hSum : width + 1 + numDigits = width + (numDigits + 1) :=
          by omega
        rw [hSum] at hResult
        exact ⟨by omega, hResult.2⟩

theorem safe_digitsOr
    (s : List UInt8)
    (pos : Nat)
    {numDigits : Nat}
    (hDigits : numDigits ≤ 9)
    (rv : Int) :
    Safe
      (fun parsed =>
        parsed.1 = pos + numDigits ∧ 0 ≤ parsed.2 ∧
          parsed.2 < 10 ^ numDigits)
      (digitsOr s pos numDigits rv) := by
  have hSum : 0 + numDigits = numDigits := Nat.zero_add numDigits
  have hSafe : Safe _ (parseDigits s numDigits pos 0 : Res Int _) :=
    safe_parseDigits s 0 (by omega) (Int.le_refl 0) (by decide)
  apply hSafe.bind
  intro parsed hParsed
  cases parsed with
  | none => trivial
  | some parsed =>
      have hResult := hParsed parsed.1 parsed.2 rfl
      rw [hSum] at hResult
      exact hResult

--------------------
-- Dates
--------------------

variable {Date DateTime : Type}

/- Days that are reached from the years of four digits. -/
theorem safe_addDays
    {E : Type}
    {chrono : Chrono Date DateTime}
    (hChrono : chrono.Documented)
    (date : Date)
    {days : Int}
    (hLow : -800000 ≤ chrono.dayNumber date + days)
    (hHigh : chrono.dayNumber date + days ≤ 3000000) :
    Safe
      (fun later =>
        chrono.dayNumber later = chrono.dayNumber date + days)
      (expect (chrono.addDays date days) : Res E Date) := by
  have hFirst : Chrono.firstDay ≤ -800000 := by decide
  have hLast : 3000000 ≤ Chrono.lastDay := by decide
  exact safe_expect
    (hChrono.addDays date days (by omega) (by omega))

theorem safe_week1Monday
    {chrono : Chrono Date DateTime}
    (hChrono : chrono.Documented)
    {jan1 : Date}
    (hLow : -719162 ≤ chrono.dayNumber jan1)
    (hHigh : chrono.dayNumber jan1 ≤ 2932532) :
    Safe
      (fun monday =>
        chrono.dayNumber jan1 - 6 ≤ chrono.dayNumber monday ∧
          chrono.dayNumber monday ≤ chrono.dayNumber jan1 + 7)
      (week1Monday chrono jan1) := by
  have hWeekday : chrono.numDaysFromMonday jan1 < 7 := by
    have hMonday := hChrono.numDaysFromMonday jan1
    unfold Gregorian.weekday at hMonday
    omega
  rw [week1Monday]
  apply (safe_addDays hChrono jan1 (by omega) (by omega)).bind
  intro monday hMonday
  by_cases hLate : chrono.numDaysFromMonday jan1 > 3
  · rw [if_pos hLate]
    apply (safe_addDays hChrono monday (by omega) (by omega)).mono
    intro later hLater
    omega
  · rw [if_neg hLate]
    change _ ∧ _
    omega

theorem exists_jan1
    {chrono : Chrono Date DateTime}
    (hChrono : chrono.Documented)
    {year : Int}
    (hFirst : 1 ≤ year)
    (hLast : year ≤ 9999) :
    ∃ date,
      chrono.fromYmdOpt year 1 1 = some date ∧
        chrono.dayNumber date = Gregorian.dayNumber year 1 1 := by
  have hMin : Chrono.minYear = -262143 := rfl
  have hMax : Chrono.maxYear = 262142 := rfl
  have hLength : Gregorian.monthLength year 1 = 31 := rfl
  have hDate : Gregorian.IsDate year 1 1 := by
    refine ⟨?_, ?_, ?_, ?_⟩
    all_goals omega
  rcases hChrono.fromYmdOpt_isSome year 1 1 (by omega) (by omega)
    hDate with ⟨date, hSome⟩
  rcases hChrono.fromYmdOpt_some _ _ _ _ hSome with
    ⟨hSameYear, hSameMonth, hSameDay⟩
  refine ⟨date, hSome, ?_⟩
  rw [Chrono.dayNumber, hSameYear, hSameMonth, hSameDay]

theorem safe_isoToYmd
    {chrono : Chrono Date DateTime}
    (hChrono : chrono.Documented)
    (isoYear isoWeek isoDay : Int) :
    Safe (fun _ => True)
      (isoToYmd chrono isoYear isoWeek isoDay) := by
  rw [isoToYmd]
  by_cases hYear : ¬ (1 ≤ isoYear ∧ isoYear ≤ 9999)
  · rw [if_pos hYear]
    trivial
  rw [if_neg hYear]
  by_cases hWeek : weekOutOfRange chrono isoYear isoWeek
  · rw [if_pos hWeek]
    trivial
  rw [if_neg hWeek]
  by_cases hDay : isoDay ≤ 0 ∨ isoDay ≥ 8
  · rw [if_pos hDay]
    trivial
  rw [if_neg hDay]
  have hYears := not_not.mp hYear
  have hWeeks : 1 ≤ isoWeek ∧ isoWeek ≤ 53 := by
    unfold weekOutOfRange at hWeek
    omega
  have hRange :=
    Gregorian.dayNumber_first_bounds hYears.1 hYears.2
  apply (safe_expect (exists_jan1 hChrono hYears.1 hYears.2)).bind
  intro jan1 hJan1
  apply (safe_week1Monday hChrono (by omega) (by omega)).bind
  intro monday hMonday
  apply (safe_i32 (by omega) (by omega)).bind
  rintro days rfl
  apply (safe_addDays hChrono monday (by omega) (by omega)).bind
  intro date _
  trivial

/- A day of a week takes one digit more, or stands for Monday. -/
theorem safe_isoDayOf
    (s : List UInt8)
    (p : Nat)
    (len : Int)
    (usesSeparator : Bool) :
    Safe (fun _ => True) (isoDayOf s p len usesSeparator) := by
  have hDigit :
      ∀ q, Safe (fun _ => True)
        (digitsOr s q 1 (-4) >>=
          fun parsed => (.ok parsed.2 : Res Int Int)) := by
    intro q
    apply (safe_digitsOr s q (by omega) (-4)).bind
    intro parsed _
    trivial
  rw [isoDayOf]
  split
  · split
    · split
      · trivial
      · exact hDigit (p + 1)
    · exact hDigit p
  · trivial

theorem safe_parseWeekDate
    {chrono : Chrono Date DateTime}
    (hChrono : chrono.Documented)
    (s : List UInt8)
    (len year : Int)
    (p : Nat)
    (usesSeparator : Bool) :
    Safe (fun _ => True)
      (parseWeekDate chrono s len year p usesSeparator) := by
  rw [parseWeekDate]
  apply (safe_digitsOr s p (by omega) (-3)).bind
  intro week _
  apply (safe_isoDayOf s week.1 len usesSeparator).bind
  intro isoDay _
  apply ((safe_isoToYmd hChrono year week.2 isoDay).mapErr _).bind
  intro ymd _
  trivial

theorem safe_parseMonthDate
    (s : List UInt8)
    (year : Int)
    (p : Nat)
    (usesSeparator : Bool) :
    Safe (fun _ => True)
      (parseMonthDate s year p usesSeparator) := by
  have hDay :
      ∀ q (month : Int), Safe (fun _ => True)
        (digitsOr s q 2 (-1) >>=
          fun parsed =>
            (.ok (year, month, parsed.2) :
              Res Int (Int × Int × Int))) := by
    intro q month
    apply (safe_digitsOr s q (by omega) (-1)).bind
    intro parsed _
    trivial
  rw [parseMonthDate]
  apply (safe_digitsOr s p (by omega) (-1)).bind
  intro month _
  dsimp only
  split
  · split
    · trivial
    · exact hDay (month.1 + 1) month.2
  · exact hDay month.1 month.2

theorem safe_parseIsoformatDate
    {chrono : Chrono Date DateTime}
    (hChrono : chrono.Documented)
    (s : List UInt8)
    (len : Int) :
    Safe (fun _ => True) (parseIsoformatDate chrono s len) := by
  rw [parseIsoformatDate]
  apply (safe_digitsOr s 0 (by omega) (-1)).bind
  intro year _
  dsimp only
  generalize decide (byteAt s year.1 = byte '-') = usesSeparator
  generalize (if usesSeparator then year.1 + 1 else year.1) = p
  split
  · exact safe_parseWeekDate hChrono s len year.2 _ _
  · exact safe_parseMonthDate s year.2 _ _

/- A week date of nine bytes that ends with a hyphen. -/
theorem findSeparator_negative
    {s : List UInt8}
    (hLength : 7 ≤ s.length)
    (hNegative : findSeparator s s.length < 0) :
    s.length = 9 ∧ byteAt s 4 = byte '-' ∧
      byteAt s 5 = byte 'W' ∧ byteAt s 8 = byte '-' := by
  unfold findSeparator at hNegative
  split at hNegative
  · omega
  rename_i hSeven
  split at hNegative
  · rename_i hFour
    split at hNegative
    · rename_i hFive
      split at hNegative
      · omega
      split at hNegative
      · rename_i hEight
        split at hNegative
        · rename_i hNine
          exact ⟨hNine, hFour, hFive, hEight.2⟩
        split at hNegative
        · omega
        · omega
      · omega
    · omega
  · split at hNegative
    · dsimp only at hNegative
      split at hNegative
      · omega
      split at hNegative
      · omega
      · omega
    · omega

/- There the digit of the day is past the end. -/
theorem digitsOr_end
    {s : List UInt8}
    {pos : Nat}
    (hPos : s.length ≤ pos)
    (rv : Int) :
    digitsOr s pos 1 rv = .error (.error rv) := by
  have hEnd : byteAt s pos = 0 := by
    rw [byteAt, List.getElem?_eq_none hPos]
    rfl
  have hOther : byteAt s pos - byte '0' > 9 := by
    rw [hEnd]
    decide
  rw [digitsOr, parseDigits, if_pos hOther]
  rfl

theorem date_of_negative
    (chrono : Chrono Date DateTime)
    {s : List UInt8}
    (hLength : 7 ≤ s.length)
    (hNegative : findSeparator s s.length < 0) :
    Safe (fun _ => False)
      (parseIsoformatDate chrono s (findSeparator s s.length)) := by
  rcases findSeparator_negative hLength hNegative with
    ⟨hNine, hFour, hFive, hEight⟩
  rw [parseIsoformatDate]
  apply (safe_digitsOr s 0 (by omega) (-1)).bind
  rintro ⟨p, year⟩ ⟨hP, _⟩
  have hSame : p = 4 := hP
  rw [hSame]
  simp only [hFour, decide_true, if_true, hFive]
  rw [parseWeekDate]
  apply (safe_digitsOr s 6 (by omega) (-3)).bind
  rintro ⟨q, isoWeek⟩ ⟨hQ, _⟩
  have hSameQ : q = 8 := hQ
  have hMissing : digitsOr s 9 1 (-4) = .error (.error (-4)) :=
    digitsOr_end (by omega) (-4)
  rw [hSameQ]
  simp only [isoDayOf, hNegative, true_or, if_true, hEight,
    ne_eq, not_true_eq_false, if_false, hMissing]
  trivial

--------------------
-- Times
--------------------

/- Two digits at most. -/
def TwoDigits (val : Int) : Prop :=
  0 ≤ val ∧ val ≤ 99

structure Bounded (vals : Vals) : Prop where
  hour : TwoDigits vals.hour
  minute : TwoDigits vals.minute
  second : TwoDigits vals.second

theorem bounded_zero : Bounded {} := by
  constructor <;> exact ⟨by decide, by decide⟩

theorem Bounded.set
    {vals : Vals}
    (hVals : Bounded vals)
    (i : Nat)
    {val : Int}
    (hVal : TwoDigits val) :
    Bounded (vals.set i val) := by
  unfold Vals.set
  split
  · exact ⟨hVal, hVals.minute, hVals.second⟩
  · exact ⟨hVals.hour, hVal, hVals.second⟩
  · exact ⟨hVals.hour, hVals.minute, hVal⟩

/- A fraction starts before the end. -/
def FieldsFine (last : Nat) : Fields → Prop
| .returned _ vals => Bounded vals
| .fraction p vals => p < last ∧ Bounded vals

theorem safe_fieldLoop
    (s : List UInt8)
    (last count : Nat)
    (i : Nat)
    {p : Nat}
    (hasSeparator : Bool)
    {vals : Vals}
    (hVals : Bounded vals)
    (hP : count = 0 → p < last) :
    Safe (FieldsFine last)
      (fieldLoop s last count i p hasSeparator vals) := by
  induction count generalizing i p hasSeparator vals with
  | zero => exact ⟨hP rfl, hVals⟩
  | succ count ih =>
      rw [fieldLoop]
      apply (safe_digitsOr s p (by omega) (-3)).bind
      rintro ⟨q, val⟩ ⟨_, hLow, hHigh⟩
      have hVal : TwoDigits val := by
        have hHundred : val < 100 := hHigh
        exact ⟨hLow, by omega⟩
      have hSet := hVals.set i hVal
      dsimp only
      generalize (if i = 0 then decide (byteAt s q = byte ':')
        else hasSeparator) = separated
      split
      · exact hSet
      rename_i hInside
      split
      · exact ih (i + 1) separated hSet (fun _ => by omega)
      split
      · exact ⟨by omega, hSet⟩
      split
      · apply (safe_sub (Nat.le_add_left 1 q)).bind
        rintro back rfl
        exact ih (i + 1) separated hSet (fun _ => by omega)
      · trivial

/- Each number of digits has its factor. -/
theorem safe_corrected
    {toParse : Nat}
    {microsecond : Int}
    (hFirst : 1 ≤ toParse)
    (hLow : 0 ≤ microsecond)
    (hHigh : microsecond < 10 ^ toParse) :
    Safe (fun _ => True) (corrected toParse microsecond) := by
  rw [corrected]
  by_cases hFewer : toParse < 6
  · have hFactor :
        ∃ factor,
          correction[toParse - 1]? = some factor ∧
            0 ≤ microsecond * factor ∧
              microsecond * factor < 1000000 := by
      have hCases :
          toParse = 1 ∨ toParse = 2 ∨ toParse = 3 ∨
            toParse = 4 ∨ toParse = 5 := by
        omega
      rcases hCases with rfl | rfl | rfl | rfl | rfl
      all_goals
        refine ⟨_, rfl, ?_, ?_⟩ <;> omega
    rw [if_pos hFewer]
    apply (safe_sub hFirst).bind
    rintro index rfl
    apply (safe_expect hFactor).bind
    intro factor hProduct
    exact (safe_i32 (by omega) (by omega)).mono
      (fun _ _ => trivial)
  · rw [if_neg hFewer]
    trivial

theorem safe_parseFraction
    (s : List UInt8)
    {last p : Nat}
    (hP : p < last)
    {vals : Vals}
    (hVals : Bounded vals) :
    Safe (fun parsed => Bounded parsed.2)
      (parseFraction s last p vals) := by
  rw [parseFraction]
  apply (safe_sub (Nat.le_of_lt hP)).bind
  rintro left rfl
  have hSix : min (last - p) 6 ≤ 9 := by omega
  apply (safe_digitsOr s p hSix (-3)).bind
  rintro ⟨q, microsecond⟩ ⟨_, hLow, hHigh⟩
  apply (safe_corrected (by omega) hLow hHigh).bind
  intro micros _
  exact ⟨hVals.hour, hVals.minute, hVals.second⟩

theorem safe_parseHhMmSsFf
    (s : List UInt8)
    (start last : Nat) :
    Safe (fun parsed => Bounded parsed.2)
      (parseHhMmSsFf s start last) := by
  have hNone : 3 = 0 → start < last := by
    intro hThree
    cases hThree
  rw [parseHhMmSsFf]
  apply (safe_fieldLoop s last 3 0 true bounded_zero hNone).bind
  intro fields hFields
  cases fields with
  | returned code vals => exact hFields
  | fraction p vals =>
      exact safe_parseFraction s hFields.1 hFields.2

theorem safe_parseZone
    (s : List UInt8)
    (pEnd tzinfoPos : Nat)
    (hmsUs : Vals) :
    Safe (fun _ => True) (parseZone s pEnd tzinfoPos hmsUs) := by
  rw [parseZone]
  apply ((safe_parseHhMmSsFf s (tzinfoPos + 1) pEnd).mapErr _).bind
  rintro ⟨rv, tz⟩ ⟨⟨hHour, hHour'⟩, ⟨hMinute, hMinute'⟩,
    ⟨hSecond, hSecond'⟩⟩
  dsimp only at hHour hHour' hMinute hMinute' hSecond hSecond'
  apply (safe_i32 (by omega) (by omega)).bind
  rintro hours rfl
  apply (safe_i32 (by omega) (by omega)).bind
  rintro minutes rfl
  apply (safe_i32 (by omega) (by omega)).bind
  rintro sum rfl
  apply (safe_i32 (by omega) (by omega)).bind
  rintro total rfl
  split
  · trivial
  · trivial

theorem safe_parseIsoformatTime
    (s : List UInt8)
    (start dtlen : Nat) :
    Safe (fun _ => True) (parseIsoformatTime s start dtlen) := by
  rw [parseIsoformatTime]
  apply (safe_parseHhMmSsFf s start _).bind
  rintro ⟨rv, hmsUs⟩ _
  dsimp only
  split
  · split
    · trivial
    · trivial
  split
  · split
    · trivial
    · trivial
  · exact safe_parseZone s _ _ hmsUs

--------------------
-- Datetimes
--------------------

/- A date and a time of the calendar, and no leap second. -/
structure ValidNaive
    (chrono : Chrono Date DateTime)
    (naive : DateTime) : Prop where
  year_ge : 1 ≤ chrono.year (chrono.date naive)
  year_le : chrono.year (chrono.date naive) ≤ 9999
  isDate :
    Gregorian.IsDate (chrono.year (chrono.date naive))
      (chrono.month (chrono.date naive))
      (chrono.day (chrono.date naive))
  hour_lt : chrono.hour naive < 24
  minute_lt : chrono.minute naive < 60
  second_lt : chrono.second naive < 60
  nanosecond_lt : chrono.nanosecond naive < 1000000000

/- The microseconds of a day are not reached. -/
def ValidOffset (offset : Int) : Prop :=
  -86400000000 < offset ∧ offset < 86400000000

structure ValidDatetime
    (chrono : Chrono Date DateTime)
    (parsed : IsoDateTime DateTime) : Prop where
  naive : ValidNaive chrono parsed.naive
  offset : ∀ offset, parsed.offsetUs = some offset → ValidOffset offset

theorem safe_timeBehind
    (s : List UInt8)
    {separator : Int}
    (hSeparator : 0 ≤ separator) :
    Safe (fun _ => True) (timeBehind s separator) := by
  rw [timeBehind]
  split
  · apply (safe_asUsize hSeparator).bind
    intro p _
    exact (safe_parseIsoformatTime s _ _).mapErr _
  · trivial

theorem safe_offsetOf (rv : Int) (time : TimeParts) :
    Safe (fun offset => ∀ us, offset = some us → ValidOffset us)
      (offsetOf rv time) := by
  rw [offsetOf]
  split
  · split
    · intro us hUs
      cases hUs
      exact ⟨by decide, by decide⟩
    · dsimp only
      split
      · trivial
      · rename_i hDay
        intro us hUs
        cases hUs
        unfold ValidOffset
        omega
  · intro us hUs
    cases hUs

theorem dateOf_some
    {chrono : Chrono Date DateTime}
    (hChrono : chrono.Documented)
    {year month day : Int}
    {date : Date}
    (hDate : dateOf chrono year month day = some date) :
    1 ≤ chrono.year date ∧ chrono.year date ≤ 9999 := by
  unfold dateOf at hDate
  rcases Option.bind_eq_some_iff.mp hDate with ⟨m, _, hDate⟩
  rcases Option.bind_eq_some_iff.mp hDate with ⟨d, _, hDate⟩
  split at hDate
  · rename_i hYear
    rw [(hChrono.fromYmdOpt_some _ _ _ _ hDate).1]
    exact hYear
  · cases hDate

theorem safe_naiveOf
    {chrono : Chrono Date DateTime}
    (hChrono : chrono.Documented)
    (year month day : Int)
    (vals : Vals) :
    Safe (ValidNaive chrono)
      (naiveOf chrono year month day vals) := by
  have hDate :
      Safe (fun date => 1 ≤ chrono.year date ∧
        chrono.year date ≤ 9999)
        (okOr PyDateError.value (dateOf chrono year month day)) :=
    safe_okOr _ (fun _ hSome => dateOf_some hChrono hSome)
  rw [naiveOf]
  apply hDate.bind
  intro date hYear
  split
  · trivial
  · rename_i hRange
    rcases not_not.mp hRange with
      ⟨⟨hHour, hHour'⟩, ⟨hMinute, hMinute'⟩,
        ⟨hSecond, hSecond'⟩, ⟨hMicro, hMicro'⟩⟩
    apply safe_okOr
    intro naive hNaive
    rcases hChrono.andHmsMicroOpt date vals.hour.toNat
      vals.minute.toNat vals.second.toNat vals.microsecond.toNat
      (by omega) (by omega) (by omega) (by omega) with
      ⟨time, hTime, hDate, hHours, hMinutes, hSeconds, hNanos⟩
    rw [hTime] at hNaive
    cases hNaive
    have hIsDate := hChrono.isDate (chrono.date naive)
    refine ⟨?_, ?_, hIsDate, ?_, ?_, ?_, ?_⟩
    · rw [hDate]
      exact hYear.1
    · rw [hDate]
      exact hYear.2
    all_goals omega

theorem length_bytesOf_ge (input : List Char) :
    input.length ≤ (bytesOf input).length := by
  induction input with
  | nil => exact Nat.le_refl 0
  | cons c rest ih =>
      have hPos := c.utf8Size_pos
      have hSize := String.length_utf8EncodeChar c
      rw [bytesOf, List.flatMap_cons, List.length_append,
        List.length_cons]
      rw [bytesOf] at ih
      omega

theorem safe_fromisoformat
    {chrono : Chrono Date DateTime}
    (hChrono : chrono.Documented)
    (input : List Char) :
    Safe (ValidDatetime chrono) (fromisoformat chrono input) := by
  rw [fromisoformat]
  by_cases hShort : input.length < 7
  · rw [if_pos hShort]
    trivial
  rw [if_neg hShort]
  have hLength := length_bytesOf_ge input
  dsimp only
  generalize bytesOf input = s at hLength ⊢
  have hDate :
      Safe (fun _ => 0 ≤ findSeparator s s.length)
        (parseIsoformatDate chrono s
          (findSeparator s s.length)) := by
    by_cases hNegative : findSeparator s s.length < 0
    · exact (date_of_negative chrono (by omega) hNegative).mono
        (fun _ hFalse => hFalse.elim)
    · exact (safe_parseIsoformatDate hChrono s _).mono
        (fun _ _ => Int.not_lt.mp hNegative)
  apply (hDate.mapErr _).bind
  rintro ⟨year, month, day⟩ hSeparator
  apply (safe_timeBehind s hSeparator).bind
  rintro ⟨rv, time⟩ _
  apply (safe_offsetOf rv time).bind
  intro offsetUs hOffset
  apply (safe_naiveOf hChrono year month day time.hmsUs).bind
  intro naive hNaive
  exact ⟨hNaive, hOffset⟩

end PyDatetime

end SentinelCommand
