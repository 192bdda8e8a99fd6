import SentinelCommand.Chrono
import SentinelCommand.Lib.Panics

/-
  `fromisoformat` of `pydatetime.rs`, over the bytes of the
  text, and `iso_naive` of `models.rs`.

  A read past the end gives 0. An overflow of `i32`, an index
  or a difference out of range, an `expect` without a value and
  the cast of a negative position are panics.

  Key definitions include:
    * `PyDatetime.parseIsoformatDate`
    * `PyDatetime.parseHhMmSsFf`
    * `PyDatetime.parseIsoformatTime`
-/

--------------------
-- Errors
--------------------

namespace SentinelCommand

namespace PyDatetime

inductive PyDateError where
  | value
  | overflow

open Panics

def byte (c : Char) : UInt8 :=
  UInt8.ofNat c.toNat

/- `CStr::at`. -/
def byteAt (s : List UInt8) (i : Nat) : UInt8 :=
  s[i]?.getD 0

/- The difference wraps around. -/
def isDigit (c : UInt8) : Bool :=
  c - byte '0' < 10

/- Digits are taken into the variable, up to the first other. -/
def parseDigits
    {E : Type}
    (s : List UInt8) : Nat → Nat → Int → Res E (Option (Nat × Int))
| 0, pos, var => .ok (some (pos, var))
| numDigits + 1, pos, var =>
    let tmp := byteAt s pos - byte '0'
    if tmp > 9 then
      .ok none
    else do
      let scaled ← i32 (var * 10)
      let var ← i32 (scaled + tmp.toNat)
      parseDigits s numDigits (pos + 1) var

/- `parse_digits` of a fresh variable, with `ok_or` and `?`. -/
def digitsOr
    (s : List UInt8)
    (pos numDigits : Nat)
    (rv : Int) : Res Int (Nat × Int) := do
  match ← parseDigits s numDigits pos 0 with
  | some parsed => .ok parsed
  | none => .error (.error rv)

def skipDigits (s : List UInt8) (pos : Nat) : Nat :=
  pos + ((s.drop pos).takeWhile isDigit).length

--------------------
-- Dates
--------------------

variable {Date DateTime : Type}

/- `weekday`, Monday for what is no date. -/
def weekday
    (chrono : Chrono Date DateTime)
    (year : Int)
    (month day : Nat) : Nat :=
  ((chrono.fromYmdOpt year month day).map
    chrono.numDaysFromMonday).getD 0

/- Whether a week is not one of the year. -/
def weekOutOfRange
    (chrono : Chrono Date DateTime)
    (isoYear isoWeek : Int) : Prop :=
  (isoWeek ≤ 0 ∨ isoWeek ≥ 53) ∧
    ¬ (isoWeek = 53 ∧
      (weekday chrono isoYear 1 1 = 3 ∨
        weekday chrono isoYear 1 1 = 2 ∧
          Gregorian.IsLeap isoYear))

instance
    (chrono : Chrono Date DateTime)
    (isoYear isoWeek : Int) :
    Decidable (weekOutOfRange chrono isoYear isoWeek) :=
  inferInstanceAs (Decidable (_ ∧ _))

/- The first week of a year is the one of its first Thursday. -/
def week1Monday
    (chrono : Chrono Date DateTime)
    (jan1 : Date) : Res Int Date := do
  let firstWeekday := chrono.numDaysFromMonday jan1
  let monday ← expect (chrono.addDays jan1 (-firstWeekday))
  if firstWeekday > 3 then
    expect (chrono.addDays monday 7)
  else
    .ok monday

def isoToYmd
    (chrono : Chrono Date DateTime)
    (isoYear isoWeek isoDay : Int) : Res Int (Int × Nat × Nat) :=
  if ¬ (1 ≤ isoYear ∧ isoYear ≤ 9999) then
    .error (.error (-4))
  else if weekOutOfRange chrono isoYear isoWeek then
    .error (.error (-2))
  else if isoDay ≤ 0 ∨ isoDay ≥ 8 then
    .error (.error (-3))
  else do
    let jan1 ← expect (chrono.fromYmdOpt isoYear 1 1)
    let monday ← week1Monday chrono jan1
    let days ← i32 ((isoWeek - 1) * 7 + isoDay - 1)
    let date ← expect (chrono.addDays monday days)
    .ok (chrono.year date, chrono.month date, chrono.day date)

/- The day of a week date; a negative length compares as large. -/
def isoDayOf
    (s : List UInt8)
    (p : Nat)
    (len : Int)
    (usesSeparator : Bool) : Res Int Int :=
  if len < 0 ∨ (p : Int) < len then
    if usesSeparator then
      if byteAt s p ≠ byte '-' then
        .error (.error (-2))
      else do
        let (_, isoDay) ← digitsOr s (p + 1) 1 (-4)
        .ok isoDay
    else do
      let (_, isoDay) ← digitsOr s p 1 (-4)
      .ok isoDay
  else
    .ok 1

/- What follows a year and `W`. -/
def parseWeekDate
    (chrono : Chrono Date DateTime)
    (s : List UInt8)
    (len year : Int)
    (p : Nat)
    (usesSeparator : Bool) : Res Int (Int × Int × Int) := do
  let (p, isoWeek) ← digitsOr s p 2 (-3)
  let isoDay ← isoDayOf s p len usesSeparator
  let (y, m, d) ←
    mapErr (fun rv => -3 + rv) (isoToYmd chrono year isoWeek isoDay)
  .ok (y, (m : Int), (d : Int))

def parseMonthDate
    (s : List UInt8)
    (year : Int)
    (p : Nat)
    (usesSeparator : Bool) : Res Int (Int × Int × Int) := do
  let (p, month) ← digitsOr s p 2 (-1)
  if usesSeparator then
    if byteAt s p ≠ byte '-' then
      .error (.error (-2))
    else do
      let (_, day) ← digitsOr s (p + 1) 2 (-1)
      .ok (year, month, day)
  else do
    let (_, day) ← digitsOr s p 2 (-1)
    .ok (year, month, day)

def parseIsoformatDate
    (chrono : Chrono Date DateTime)
    (s : List UInt8)
    (len : Int) : Res Int (Int × Int × Int) := do
  let (p, year) ← digitsOr s 0 4 (-1)
  let usesSeparator : Bool := byteAt s p = byte '-'
  let p := if usesSeparator then p + 1 else p
  if byteAt s p = byte 'W' then
    parseWeekDate chrono s len year (p + 1) usesSeparator
  else
    parseMonthDate s year p usesSeparator

--------------------
-- Times
--------------------

/- Hour, minute, second and microsecond. -/
structure Vals where
  hour : Int := 0
  minute : Int := 0
  second : Int := 0
  microsecond : Int := 0

/- One of the first three. -/
def Vals.set (vals : Vals) (i : Nat) (val : Int) : Vals :=
  match i with
  | 0 => { vals with hour := val }
  | 1 => { vals with minute := val }
  | _ => { vals with second := val }

/- The loop of the fields returns, or goes on to a fraction. -/
inductive Fields where
  | returned (code : Int) (vals : Vals)
  | fraction (p : Nat) (vals : Vals)

def codeOf (c : UInt8) : Int :=
  if c ≠ 0 then 1 else 0

def fieldLoop
    (s : List UInt8)
    (last : Nat) :
    Nat → Nat → Nat → Bool → Vals → Res Int Fields
| 0, _, p, _, vals => .ok (.fraction p vals)
| count + 1, i, p, hasSeparator, vals => do
    let (p, val) ← digitsOr s p 2 (-3)
    let vals := vals.set i val
    let c := byteAt s p
    let p := p + 1
    let hasSeparator : Bool :=
      if i = 0 then c = byte ':' else hasSeparator
    if p ≥ last then
      .ok (.returned (codeOf c) vals)
    else if hasSeparator ∧ c = byte ':' then
      fieldLoop s last count (i + 1) p hasSeparator vals
    else if c = byte '.' ∨ c = byte ',' then
      .ok (.fraction p vals)
    else if ¬ hasSeparator then do
      let p ← sub p 1
      fieldLoop s last count (i + 1) p hasSeparator vals
    else
      .error (.error (-4))

def correction : List Int :=
  [100000, 10000, 1000, 100, 10]

/- Fewer than six digits are those of a larger unit. -/
def corrected (toParse : Nat) (microsecond : Int) : Res Int Int :=
  if toParse < 6 then do
    let index ← sub toParse 1
    let factor ← expect correction[index]?
    i32 (microsecond * factor)
  else
    .ok microsecond

/- Six digits of a fraction count, the others are skipped. -/
def parseFraction
    (s : List UInt8)
    (last p : Nat)
    (vals : Vals) : Res Int (Int × Vals) := do
  let left ← sub last p
  let toParse := min left 6
  let (p, microsecond) ← digitsOr s p toParse (-3)
  let microsecond ← corrected toParse microsecond
  .ok (codeOf (byteAt s (skipDigits s p)),
    { vals with microsecond })

def parseHhMmSsFf
    (s : List UInt8)
    (start last : Nat) : Res Int (Int × Vals) := do
  match ← fieldLoop s last 3 0 start true {} with
  | .returned code vals => .ok (code, vals)
  | .fraction p vals => parseFraction s last p vals

structure TimeParts where
  hmsUs : Vals := {}
  tzoffset : Int := 0
  tzusec : Int := 0

def isZone (c : UInt8) : Bool :=
  c = byte 'Z' ∨ c = byte '+' ∨ c = byte '-'

/- The first sign of a zone; the first byte is always read. -/
def findZone (s : List UInt8) (pEnd pos : Nat) : Nat :=
  if isZone (byteAt s pos) then
    pos
  else if pos + 1 ≥ pEnd then
    pos + 1
  else
    findZone s pEnd (pos + 1)
termination_by pEnd - pos

/- The zone after its sign; the code of what is left is -5. -/
def parseZone
    (s : List UInt8)
    (pEnd tzinfoPos : Nat)
    (hmsUs : Vals) : Res Int (Int × TimeParts) := do
  let tzsign : Int := if byteAt s tzinfoPos = byte '-' then -1 else 1
  let (rv, tz) ←
    mapErr (fun _ => -5) (parseHhMmSsFf s (tzinfoPos + 1) pEnd)
  let hours ← i32 (tz.hour * 3600)
  let minutes ← i32 (tz.minute * 60)
  let sum ← i32 (hours + minutes)
  let sum ← i32 (sum + tz.second)
  if rv ≠ 0 then
    .error (.error (-5))
  else
    .ok (1,
      { hmsUs
        tzoffset := tzsign * sum
        tzusec := tzsign * tz.microsecond })

def parseIsoformatTime
    (s : List UInt8)
    (start dtlen : Nat) : Res Int (Int × TimeParts) := do
  let pEnd := start + dtlen
  let tzinfoPos := findZone s pEnd start
  let (rv, hmsUs) ← parseHhMmSsFf s start tzinfoPos
  if tzinfoPos = pEnd then
    if rv = 1 then
      .error (.error (-5))
    else
      .ok (0, { hmsUs })
  else if byteAt s tzinfoPos = byte 'Z' then
    if byteAt s (tzinfoPos + 1) ≠ 0 then
      .error (.error (-5))
    else
      .ok (1, { hmsUs })
  else
    parseZone s pEnd tzinfoPos hmsUs

--------------------
-- Datetimes
--------------------

/- `_find_isoformat_datetime_separator`. -/
def findSeparator (s : List UInt8) (len : Nat) : Int :=
  if len = 7 then
    7
  else if byteAt s 4 = byte '-' then
    if byteAt s 5 = byte 'W' then
      if len < 8 then
        -1
      else if len > 8 ∧ byteAt s 8 = byte '-' then
        if len = 9 then
          -1
        else if len > 10 ∧ isDigit (byteAt s 10) then
          8
        else
          10
      else
        8
    else
      10
  else if byteAt s 4 = byte 'W' then
    let idx := skipDigits s 7
    if idx < 9 then
      idx
    else if idx % 2 = 0 then
      7
    else
      8
  else
    8

/- How many bytes a character takes, by its first one. -/
def separatorWidth (lead : UInt8) : Nat :=
  if lead &&& 0x80 = 0 then
    1
  else if lead &&& 0xf0 = 0xe0 then
    3
  else if lead &&& 0xf0 = 0xf0 then
    4
  else
    2

structure IsoDateTime (DateTime : Type) where
  naive : DateTime
  offsetUs : Option Int

/- The time behind the separator, when there is one. -/
def timeBehind
    (s : List UInt8)
    (separator : Int) : Res PyDateError (Int × TimeParts) :=
  if (s.length : Int) > separator then do
    let p ← asUsize separator
    let p := p + separatorWidth (byteAt s p)
    mapErr (fun _ => .value)
      (parseIsoformatTime s p (s.length - p))
  else
    .ok (0, {})

/- `tzinfo_from_isoformat_results`. -/
def offsetOf
    (rv : Int)
    (time : TimeParts) : Res PyDateError (Option Int) :=
  if rv = 1 then
    if time.tzoffset = 0 then
      .ok (some 0)
    else
      let total := time.tzoffset * 1000000 + time.tzusec
      if total.natAbs ≥ 86400000000 then
        .error (.error .value)
      else
        .ok (some total)
  else
    .ok none

/- A number that is not negative. -/
def u32TryFrom (value : Int) : Option Nat :=
  if 0 ≤ value then some value.toNat else none

def dateOf
    (chrono : Chrono Date DateTime)
    (year month day : Int) : Option Date := do
  let m ← u32TryFrom month
  let d ← u32TryFrom day
  if 1 ≤ year ∧ year ≤ 9999 then
    chrono.fromYmdOpt year m d
  else
    none

def inRange (v max : Int) : Prop :=
  0 ≤ v ∧ v ≤ max

instance (v max : Int) : Decidable (inRange v max) :=
  inferInstanceAs (Decidable (_ ∧ _))

/- `new_datetime_subclass_ex`. -/
def naiveOf
    (chrono : Chrono Date DateTime)
    (year month day : Int)
    (vals : Vals) : Res PyDateError DateTime := do
  let date ← okOr .value (dateOf chrono year month day)
  if ¬ (inRange vals.hour 23 ∧ inRange vals.minute 59 ∧
    inRange vals.second 59 ∧ inRange vals.microsecond 999999) then
    .error (.error .value)
  else
    okOr .value
      (chrono.andHmsMicroOpt date vals.hour.toNat
        vals.minute.toNat vals.second.toNat
        vals.microsecond.toNat)

def bytesOf (input : List Char) : List UInt8 :=
  input.flatMap String.utf8EncodeChar

def fromisoformat
    (chrono : Chrono Date DateTime)
    (input : List Char) :
    Res PyDateError (IsoDateTime DateTime) :=
  if input.length < 7 then
    .error (.error .value)
  else do
    let s := bytesOf input
    let separator := findSeparator s s.length
    let (year, month, day) ←
      mapErr (fun _ => .value)
        (parseIsoformatDate chrono s separator)
    let (rv, time) ← timeBehind s separator
    let offsetUs ← offsetOf rv time
    let naive ← naiveOf chrono year month day time.hmsUs
    .ok { naive, offsetUs }

/- `iso_naive` of `models.rs`. -/
def isoNaive
    (chrono : Chrono Date DateTime)
    (ts : DateTime) : List Char :=
  let micros := chrono.nanosecond ts / 1000
  if micros = 0 then
    chrono.format ts
  else
    chrono.format ts ++ '.' :: zeroPadded 6 micros

end PyDatetime

end SentinelCommand
