import Mathlib.Data.List.Infix
import SentinelCommand.PyInt.Builtin

/-
  `str_as_int` of `pyint.rs`: a text is read as a strict
  integer first, and as one after cleaning otherwise.

  Cleaning drops a sign, leading zeros, a fraction of zeros
  and grouping underscores, one after the other. Each pass
  looks only at what the passes before it left, so a text can
  be odd where no pass looks: between the zeros that lead it,
  and right after them.

  Key definitions include:
    * `Coercion.jiterInt`
    * `Coercion.cleanIntStr`
    * `Coercion.strAsInt`
-/

--------------------
-- Strict Integers
--------------------

namespace SentinelCommand

namespace Coercion

open Machine CooldownArithmetic

inductive StrIntError where
  | parsing
  | parsingSize
  deriving DecidableEq, Repr

inductive JiterError where
  | outOfRange
  | other
  deriving DecidableEq, Repr

def maxIntChars : Nat := 4300

/- A digit that may lead an integer. -/
def isNonzero (c : Char) : Bool :=
  c.isDigit && c ≠ '0'

/-
  `jiter_int` after its sign; `start` is where the digits
  start.
-/
def jiterDigits
    (negative : Bool)
    (start : Nat)
    (text digits : List Char) : Except JiterError PyInt :=
  match digits with
  | [] => .error .other
  | first :: rest =>
      if first = '0' then
        if rest = [] then .ok (.small 0) else .error .other
      else if isNonzero first then
        let count := (digits.takeWhile Char.isDigit).length
        if 19 ≤ count ∧ maxIntChars < start + count then
          .error .outOfRange
        else if count ≠ digits.length then
          .error .other
        else
          match parseI64 text with
          | some v => .ok (.small v)
          | none => .ok (.big negative)
      else
        .error .other

/- A whole text as one JSON integer. -/
def jiterInt (text : List Char) : Except JiterError PyInt :=
  match text with
  | '-' :: rest => jiterDigits true 1 text rest
  | text => jiterDigits false 0 text text

--------------------
-- Cleaning
--------------------

open CooldownArithmetic Text

/- The loop of `strip_leading_zeros`, and what it passed. -/
def scanZeros
    (previous : Char) : List Char → Option (List Char)
| [] => some [previous]
| c :: rest =>
    if c = '0' ∨ c = '_' then
      scanZeros c rest
    else if isNonzero c ∨ c = '-' then
      some (c :: rest)
    else if c = '.' then
      some (previous :: c :: rest)
    else
      none

def stripLeadingZeros : List Char → Option (List Char)
| [] => none
| c :: rest =>
    if c = '0' then
      scanZeros c rest
    else if isNonzero c ∨ c = '-' then
      some (c :: rest)
    else
      none

/- Without grouping underscores, when there are some. -/
def stripUnderscores (s : List Char) : Option (List Char) :=
  if s.head? = some '_' ∨ s.getLast? = some '_' ∨
      '_' ∉ s ∨ ['_', '_'] <:+: s then
    none
  else
    some (s.filter (· ≠ '_'))

/- A plus sign has no minus sign after it. -/
def stripPlus (s : List Char) : Option (List Char) :=
  match s with
  | '+' :: rest =>
      if rest.head? = some '-' then none else some rest
  | s => some s

/- A minus sign has no sign after it. -/
def stripMinus (s : List Char) : Option (Bool × List Char) :=
  match s with
  | '-' :: rest =>
      if rest.head? = some '-' ∨ rest.head? = some '+' then
        none
      else
        some (true, rest)
  | s => some (false, s)

/- A fraction of zeros is cut off. -/
def cutFraction (s : List Char) : List Char :=
  match splitOnce '.' s with
  | some (whole, decimal) =>
      if decimal ≠ [] ∧ decimal.all (· = '0') then whole else s
  | none => s

def minus (negative : Bool) : List Char :=
  if negative then ['-'] else []

/- Nothing to clean is an error of its own. -/
def cleanIntStr (original : List Char) : Option (List Char) := do
  let s ← stripPlus (trim original)
  let (negative, s) ← stripMinus s
  let s ← stripLeadingZeros s
  let s := cutFraction s
  match stripUnderscores s with
  | some stripped => some (minus negative ++ stripped)
  | none =>
      if utf8Len original = utf8Len s then
        none
      else
        some (minus negative ++ s)

def strAsInt (s : List Char) : Except StrIntError PyInt :=
  match jiterInt s with
  | .ok v => .ok v
  | .error .outOfRange => .error .parsingSize
  | .error .other =>
      match cleanIntStr s with
      | none => .error .parsing
      | some cleaned =>
          match jiterInt cleaned with
          | .ok v => .ok v
          | .error _ => .error .parsing

open CooldownArithmetic PyInt Numeral

/- A fraction of zeros, or none. -/
def Fraction (text : List Char) : Prop :=
  text = [] ∨
    ∃ zeros, zeros ≠ [] ∧ (∀ c ∈ zeros, c = '0') ∧
      text = '.' :: zeros

/-
  A sign, digits with single underscores between them, and a
  fraction of zeros.
-/
def Written (text : List Char) (n : Int) : Prop :=
  ∃ sign negative body digits fraction,
    text = sign ++ body ++ fraction ∧
      Sign sign negative ∧ Grouped body digits ∧
      Fraction fraction ∧ n = signed negative (value digits)

/- A zero, then zeros and underscores in any order. -/
def ZeroRun (text : List Char) : Prop :=
  ∃ rest, text = '0' :: rest ∧ ∀ c ∈ rest, c = '0' ∨ c = '_'

/- The digits of a strict integer. -/
def Strict (digits : List Char) : Prop :=
  digits = ['0'] ∨ Trimmed digits

/- What stands before the fraction, and its magnitude. -/
inductive Magnitude : List Char → Nat → Prop where
  | plain {body digits : List Char} :
      Grouped body digits → Trimmed digits →
        Magnitude body (value digits)
  | padded {zeros body digits : List Char} :
      ZeroRun zeros → Grouped body digits → Trimmed digits →
        Magnitude (zeros ++ body) (value digits)
  | zero {zeros : List Char} :
      ZeroRun zeros → zeros.getLast? = some '0' →
        Magnitude zeros 0

/-
  What is accepted: a sign, a magnitude and a fraction; or
  zeros without a minus sign before them, and the minus sign
  after them.
-/
inductive Accepts : List Char → Int → Prop where
  | number {sign text fraction : List Char} {negative : Bool}
      {m : Nat} :
      Sign sign negative → Magnitude text m →
        Fraction fraction →
        Accepts (sign ++ text ++ fraction) (signed negative m)
  | dashed {sign zeros body digits fraction : List Char} :
      Sign sign false → ZeroRun zeros →
        Continues body digits → digits ≠ [] → Strict digits →
        Fraction fraction →
        Accepts (sign ++ zeros ++ '-' :: body ++ fraction)
          (-(value digits : Int))

end Coercion

end SentinelCommand
