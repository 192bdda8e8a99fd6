import Mathlib.Data.Rat.Floor
import Mathlib.Tactic.Ring
import SentinelCommand.Lib.Binary64

/-
  Finite binary64 numbers as exact rationals, and what
  cutting one to an integer gives. The sign of a zero, which
  no such reading depends on, is not kept.

  Key definitions include:
    * `Binary64.Representable`
    * `Binary64.Finite`
    * `Binary64.truncate`
    * `Binary64.ofInt`

  Key theorems include:
    * `Binary64.eq_truncate_of_large`
-/

--------------------
-- Finite Numbers
--------------------

namespace Binary64

/- A significand of 53 bits times a power of two. -/
def Representable (q : ℚ) : Prop :=
  ∃ significand exponent : Int,
    significand.natAbs < 2 ^ 53 ∧
      -1074 ≤ exponent ∧ exponent ≤ 971 ∧
      q = significand * 2 ^ exponent

structure Finite where
  value : ℚ
  representable : Representable value

/- Toward zero. -/
def truncate (q : ℚ) : Int :=
  if 0 ≤ q then ⌊q⌋ else ⌈q⌉

/- The nearest number to an integer. -/
def ofInt (n : Int) : ℚ :=
  if 0 ≤ n then
    (round n.natAbs : Nat)
  else
    -((round n.natAbs : Nat) : ℚ)

@[simp]
theorem truncate_intCast (n : Int) :
    truncate (n : ℚ) = n := by
  unfold truncate
  split
  · exact Int.floor_intCast n
  · exact Int.ceil_intCast n

theorem ofInt_natCast (n : Nat) :
    ofInt n = ((round n : Nat) : Int) := by
  unfold ofInt
  rw [if_pos (by omega)]
  simp

/- A number with no fraction, or one below `2 ^ 53`. -/
theorem whole_or_small
    {q : ℚ}
    (hQ : Representable q) :
    q = truncate q ∨ |q| < 2 ^ 53 := by
  obtain ⟨m, e, hM, -, -, rfl⟩ := hQ
  rcases Int.le_total 0 e with hPos | hNeg
  · left
    obtain ⟨k, rfl⟩ := Int.eq_ofNat_of_zero_le hPos
    have hInt :
        (m : ℚ) * 2 ^ (k : Int) = ((m * 2 ^ k : Int) : ℚ) := by
      push_cast
      rw [zpow_natCast]
    rw [hInt, truncate_intCast]
  · right
    have hAbs : |(m : ℚ)| < 2 ^ 53 := by
      rw [← Int.cast_abs, Int.abs_eq_natAbs]
      exact_mod_cast hM
    have hPow : (2 : ℚ) ^ e ≤ 1 :=
      zpow_le_one_of_nonpos₀ (by norm_num) hNeg
    have hPowPos : (0 : ℚ) < 2 ^ e := zpow_pos (by norm_num) e
    rw [abs_mul, abs_of_pos hPowPos]
    calc |(m : ℚ)| * 2 ^ e
        ≤ |(m : ℚ)| * 1 :=
          mul_le_mul_of_nonneg_left hPow (abs_nonneg _)
      _ < 2 ^ 53 := by rwa [mul_one]

theorem abs_truncate_le (q : ℚ) :
    |(truncate q : ℚ)| ≤ |q| := by
  unfold truncate
  split
  · rename_i hPos
    have hFloor : (0 : ℚ) ≤ (⌊q⌋ : ℚ) := by
      exact_mod_cast Int.floor_nonneg.mpr hPos
    rw [abs_of_nonneg hFloor, abs_of_nonneg hPos]
    exact Int.floor_le q
  · rename_i hNeg
    have hNeg' : q ≤ 0 := (not_le.mp hNeg).le
    have hCeil : (⌈q⌉ : ℚ) ≤ 0 := by
      exact_mod_cast Int.ceil_le.mpr (by simpa using hNeg')
    rw [abs_of_nonpos hCeil, abs_of_nonpos hNeg']
    exact neg_le_neg (Int.le_ceil q)

/- A number from `2 ^ 53` on has no fraction to cut. -/
theorem eq_truncate_of_large
    {q : ℚ}
    (hQ : Representable q)
    (hLarge : 2 ^ 53 ≤ (truncate q).natAbs) :
    q = truncate q := by
  refine (whole_or_small hQ).resolve_right ?_
  intro hSmall
  have hLe := abs_truncate_le q
  have hCast : (2 ^ 53 : ℚ) ≤ |(truncate q : ℚ)| := by
    rw [← Int.cast_abs, Int.abs_eq_natAbs]
    exact_mod_cast hLarge
  linarith

end Binary64
