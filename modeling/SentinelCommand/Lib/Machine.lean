import Mathlib.Algebra.Order.Ring.Int
import SentinelCommand.Lib.Numeral

/-
  Computations on 64-bit signed integers, as a debug build
  and a release build carry them out.

  A result out of range stops the debug build with a panic;
  the release build goes on with the wrapped value. A
  computation tells whether all of its values were exact.

  Key definitions include:
    * `Machine.Build`, `Machine.Computed`
    * `Machine.wrap`, `Machine.settle`
    * `Machine.parseI64`

  Key theorems include:
    * `Machine.Computed.bind_eq_exact_iff`
    * `Machine.settle_eq_exact_iff`
-/

--------------------
-- Computations
--------------------

namespace Machine

inductive Build where
  | debug
  | release
  deriving DecidableEq, Repr

/- A panic, or a value and whether it was reached exactly. -/
inductive Computed (α : Type) where
  | panics
  | returns (value : α) (exact : Bool)
  deriving DecidableEq, Repr

namespace Computed

variable {α β : Type}

def bind
    (x : Computed α)
    (f : α → Computed β) : Computed β :=
  match x with
  | panics => panics
  | returns a exactA =>
      match f a with
      | panics => panics
      | returns b exactB => returns b (exactA && exactB)

instance : Monad Computed where
  pure a := returns a true
  bind := bind

/- The value, whether exact or not. -/
def value : Computed α → Option α
| panics => none
| returns a _ => some a

/- A sequence is exact when both of its parts are. -/
theorem bind_eq_exact_iff
    (x : Computed α)
    (f : α → Computed β)
    (b : β) :
    (x >>= f) = returns b true ↔
      ∃ a, x = returns a true ∧ f a = returns b true := by
  change bind x f = _ ↔ _
  cases x with
  | panics =>
      simp [bind]
  | returns a exactA =>
      unfold bind
      cases hRest : f a with
      | panics =>
          simp [hRest]
      | returns c exactC =>
          simp [hRest, and_left_comm]

@[simp]
theorem returns_bind
    (a : α)
    (f : α → Computed β) :
    (returns a true >>= f) = f a := by
  change bind (returns a true) f = f a
  unfold bind
  cases hRest : f a with
  | panics => simp [hRest]
  | returns b exactB => simp [hRest]

end Computed

end Machine

--------------------
-- Arithmetic
--------------------

namespace Machine

def i64Max : Int := 9223372036854775807

def i64Min : Int := -9223372036854775808

def InI64 (n : Int) : Prop :=
  i64Min ≤ n ∧ n ≤ i64Max

instance (n : Int) : Decidable (InI64 n) :=
  inferInstanceAs (Decidable (_ ∧ _))

/- The value of the same 64 bits. -/
def wrap (n : Int) : Int :=
  (n - i64Min) % 18446744073709551616 + i64Min

/- The result of an operation whose exact result is `n`. -/
def settle (build : Build) (n : Int) : Computed Int :=
  if InI64 n then
    .returns n true
  else
    match build with
    | .debug => .panics
    | .release => .returns (wrap n) false

def add (build : Build) (a b : Int) : Computed Int :=
  settle build (a + b)

def sub (build : Build) (a b : Int) : Computed Int :=
  settle build (a - b)

def mul (build : Build) (a b : Int) : Computed Int :=
  settle build (a * b)

def abs (build : Build) (a : Int) : Computed Int :=
  settle build |a|

/- `saturating_mul` stops at the ends of the range. -/
def saturatingMul (a b : Int) : Int :=
  max i64Min (min i64Max (a * b))

theorem settle_of_inI64
    (build : Build)
    {n : Int}
    (hRange : InI64 n) :
    settle build n = .returns n true := by
  unfold settle
  rw [if_pos hRange]

theorem settle_eq_exact_iff
    (build : Build)
    (n value : Int) :
    settle build n = .returns value true ↔
      InI64 n ∧ value = n := by
  unfold settle
  split
  · rename_i hRange
    simp [hRange, eq_comm]
  · rename_i hRange
    cases build <;> simp [hRange]

theorem saturatingMul_of_le
    {a b : Int}
    (hLow : i64Min ≤ a * b)
    (hHigh : a * b ≤ i64Max) :
    saturatingMul a b = a * b := by
  unfold saturatingMul
  rw [min_eq_right hHigh, max_eq_right hLow]

theorem saturatingMul_of_gt
    {a b : Int}
    (hHigh : i64Max < a * b) :
    saturatingMul a b = i64Max := by
  unfold saturatingMul
  rw [min_eq_left hHigh.le]
  rfl

/- The value of a text of one or more digits. -/
def digits (text : List Char) : Option Int :=
  if text ≠ [] ∧ text.all (·.isDigit) then
    some (Numeral.value text)
  else
    none

/- `str::parse` for a signed number of any size. -/
def parseInt (text : List Char) : Option Int :=
  match text with
  | '-' :: rest => (digits rest).map (- ·)
  | '+' :: rest => digits rest
  | text => digits text

/- `str::parse::<i64>`. -/
def parseI64 (text : List Char) : Option Int :=
  (parseInt text).filter (fun n => InI64 n)

end Machine
