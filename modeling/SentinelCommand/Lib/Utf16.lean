import Mathlib.Data.Nat.Init

/-
  Surrogate pairs, and code units as four hex digits.

  Key definitions include:
    * `Utf16.high`, `Utf16.low`, `Utf16.join`
    * `Utf16.hexDigit`, `Utf16.readUnit`

  Key theorems include:
    * `Utf16.join_split`
    * `Utf16.readUnit_spelled`
-/

--------------------
-- Surrogates
--------------------

namespace Utf16

def IsHigh (unit : Nat) : Prop :=
  55296 ≤ unit ∧ unit < 56320

def IsLow (unit : Nat) : Prop :=
  56320 ≤ unit ∧ unit < 57344

instance (unit : Nat) : Decidable (IsHigh unit) :=
  inferInstanceAs (Decidable (_ ∧ _))

instance (unit : Nat) : Decidable (IsLow unit) :=
  inferInstanceAs (Decidable (_ ∧ _))

/- The halves of a code point beyond the basic plane. -/
def high (point : Nat) : Nat :=
  55296 + (point - 65536) / 1024

def low (point : Nat) : Nat :=
  56320 + (point - 65536) % 1024

def join (high low : Nat) : Nat :=
  65536 + (high - 55296) * 1024 + (low - 56320)

theorem isHigh_high
    {point : Nat}
    (hPoint : point < 1114112) :
    IsHigh (high point) := by
  unfold IsHigh high
  omega

theorem isLow_low (point : Nat) :
    IsLow (low point) := by
  unfold IsLow low
  omega

theorem join_split
    {point : Nat}
    (hPoint : 65536 ≤ point) :
    join (high point) (low point) = point := by
  unfold join high low
  omega

def hexDigit (c : Char) : Option Nat :=
  if c.isDigit then
    some (c.toNat - 48)
  else if 'a' ≤ c ∧ c ≤ 'f' then
    some (c.toNat - 87)
  else if 'A' ≤ c ∧ c ≤ 'F' then
    some (c.toNat - 55)
  else
    none

theorem hexDigit_digitChar :
    ∀ d < 16, hexDigit (Nat.digitChar d) = some d := by
  decide

/- A code unit and what follows it. -/
def readUnit : List Char → Option (Nat × List Char)
| a :: b :: c :: d :: rest =>
    match hexDigit a, hexDigit b, hexDigit c, hexDigit d with
    | some a, some b, some c, some d =>
        some (((a * 16 + b) * 16 + c) * 16 + d, rest)
    | _, _, _, _ => none
| _ => none

theorem readUnit_spelled
    {unit : Nat}
    (hUnit : unit < 65536)
    (rest : List Char) :
    readUnit
        (Nat.digitChar (unit / 256 / 16) ::
          Nat.digitChar (unit / 256 % 16) ::
            Nat.digitChar (unit % 256 / 16) ::
              Nat.digitChar (unit % 256 % 16) :: rest) =
      some (unit, rest) := by
  have hValue :
      ((unit / 256 / 16 * 16 + unit / 256 % 16) * 16 +
        unit % 256 / 16) * 16 + unit % 256 % 16 = unit := by
    omega
  rw [readUnit, hexDigit_digitChar _ (by omega),
    hexDigit_digitChar _ (by omega),
    hexDigit_digitChar _ (by omega),
    hexDigit_digitChar _ (by omega)]
  dsimp only
  rw [hValue]

end Utf16
