import Mathlib.Data.Int.Basic

/-
  Computations that return, fail with an error, or panic, and
  the rules that show that they do not panic.

  Key definitions include:
    * `Panics.Res`
    * `Panics.Safe`

  Key theorems include:
    * `Panics.Safe.bind`
    * `Panics.safe_i32`
-/

--------------------
-- Results
--------------------

namespace Panics

inductive Fault (E : Type) where
  | error (e : E)
  | panics

abbrev Res (E A : Type) : Type :=
  Except (Fault E) A

/- An error that is mapped; a panic is passed on. -/
def mapErr
    {E F A : Type}
    (f : E → F) : Res E A → Res F A
| .ok a => .ok a
| .error (.error e) => .error (.error (f e))
| .error .panics => .error .panics

def okOr {E A : Type} (e : E) : Option A → Res E A
| some a => .ok a
| none => .error (.error e)

def expect {E A : Type} : Option A → Res E A
| some a => .ok a
| none => .error .panics

/- A value of 32 bits with a sign. -/
def i32 {E : Type} (value : Int) : Res E Int :=
  if -2147483648 ≤ value ∧ value ≤ 2147483647 then
    .ok value
  else
    .error .panics

/- A difference without a sign. -/
def sub {E : Type} (a b : Nat) : Res E Nat :=
  if b ≤ a then .ok (a - b) else .error .panics

/- A value of a sign that is used without one. -/
def asUsize {E : Type} (value : Int) : Res E Nat :=
  if 0 ≤ value then .ok value.toNat else .error .panics

--------------------
-- Safety
--------------------

variable {E F A B : Type}

/- No panic, and what a returned value is like. -/
def Safe (P : A → Prop) : Res E A → Prop
| .ok a => P a
| .error (.error _) => True
| .error .panics => False

theorem Safe.cases
    {P : A → Prop}
    {r : Res E A}
    (hSafe : Safe P r) :
    (∃ a, r = .ok a ∧ P a) ∨ ∃ e, r = .error (.error e) := by
  cases r with
  | ok a => exact Or.inl ⟨a, rfl, hSafe⟩
  | error fault =>
      cases fault with
      | error e => exact Or.inr ⟨e, rfl⟩
      | panics => exact hSafe.elim

theorem Safe.bind
    {P : A → Prop}
    {Q : B → Prop}
    {r : Res E A}
    {f : A → Res E B}
    (hSafe : Safe P r)
    (hNext : ∀ a, P a → Safe Q (f a)) :
    Safe Q (r >>= f) := by
  cases r with
  | ok a => exact hNext a hSafe
  | error fault =>
      cases fault with
      | error e => trivial
      | panics => exact hSafe.elim

theorem Safe.mono
    {P Q : A → Prop}
    {r : Res E A}
    (hSafe : Safe P r)
    (hImp : ∀ a, P a → Q a) :
    Safe Q r := by
  cases r with
  | ok a => exact hImp a hSafe
  | error fault =>
      cases fault with
      | error e => trivial
      | panics => exact hSafe.elim

theorem Safe.mapErr
    {P : A → Prop}
    {r : Res E A}
    (hSafe : Safe P r)
    (f : E → F) :
    Safe P (Panics.mapErr f r) := by
  cases r with
  | ok a => exact hSafe
  | error fault =>
      cases fault with
      | error e => trivial
      | panics => exact hSafe.elim

theorem safe_okOr
    {P : A → Prop}
    (e : E)
    {value : Option A}
    (hValue : ∀ a, value = some a → P a) :
    Safe P (okOr e value) := by
  cases value with
  | none => trivial
  | some a => exact hValue a rfl

theorem safe_expect
    {P : A → Prop}
    {value : Option A}
    (hValue : ∃ a, value = some a ∧ P a) :
    Safe P (expect value : Res E A) := by
  rcases hValue with ⟨a, hSome, hP⟩
  rw [hSome]
  exact hP

theorem safe_i32
    {value : Int}
    (hLow : -2147483648 ≤ value)
    (hHigh : value ≤ 2147483647) :
    Safe (· = value) (i32 value : Res E Int) := by
  rw [i32, if_pos ⟨hLow, hHigh⟩]
  rfl

theorem safe_sub
    {a b : Nat}
    (hLe : b ≤ a) :
    Safe (· = a - b) (sub a b : Res E Nat) := by
  rw [sub, if_pos hLe]
  rfl

theorem safe_asUsize
    {value : Int}
    (hValue : 0 ≤ value) :
    Safe (fun n : Nat => (n : Int) = value)
      (asUsize value : Res E Nat) := by
  rw [asUsize, if_pos hValue]
  exact Int.toNat_of_nonneg hValue

end Panics
