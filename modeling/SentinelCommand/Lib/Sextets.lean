import Mathlib.Data.Nat.Init
import Mathlib.Tactic.IntervalCases
import Mathlib.Tactic.Linarith

/-
  Bytes as groups of six bits, four to three bytes, and the
  accumulator that puts them together again.

  A reader is at one of four places in a group, and holds the
  bits that do not fill a byte yet.

  Key definitions include:
    * `Sextets.ofBytes`
    * `Sextets.read`
    * `Sextets.drain`

  Key theorems include:
    * `Sextets.read_ofBytes`
    * `Sextets.drain_eq`
-/

--------------------
-- Groups
--------------------

namespace Sextets

/- The groups of six bits; the last one is filled with zeros. -/
def ofBytes : List UInt8 → List Nat
| [] => []
| [a] => [a.toNat / 4, a.toNat % 4 * 16]
| [a, b] =>
    [a.toNat / 4, a.toNat % 4 * 16 + b.toNat / 16,
      b.toNat % 16 * 4]
| a :: b :: c :: rest =>
    a.toNat / 4 :: (a.toNat % 4 * 16 + b.toNat / 16) ::
      (b.toNat % 16 * 4 + c.toNat / 64) :: c.toNat % 64 ::
        ofBytes rest

/- Where a reader is, by the bits it holds. -/
inductive Place where
  | first
  | second
  | third
  | fourth
  deriving DecidableEq, Repr

def Place.bits : Place → Nat
| .first => 0
| .second => 6
| .third => 4
| .fourth => 2

def Place.next : Place → Place
| .first => .second
| .second => .third
| .third => .fourth
| .fourth => .first

/- The byte that a group completes, after its first one. -/
def byte (place : Place) (held v : Nat) : List UInt8 :=
  match place with
  | .first => []
  | .second => [UInt8.ofNat (held * 4 + v / 16)]
  | .third => [UInt8.ofNat (held * 16 + v / 4)]
  | .fourth => [UInt8.ofNat (held * 64 + v)]

/- The bits of a group that are left for the next byte. -/
def held (place : Place) (v : Nat) : Nat :=
  match place with
  | .first => v
  | .second => v % 16
  | .third => v % 4
  | .fourth => 0

/- The bytes of groups, read from a place on. -/
def read : Place → Nat → List Nat → List UInt8
| _, _, [] => []
| place, h, v :: rest =>
    byte place h v ++ read place.next (held place v) rest

/- Groups that are shifted into a 32-bit accumulator. -/
def drain (acc bits : Nat) : List Nat → List UInt8
| [] => []
| v :: rest =>
    let acc := (acc <<< 6) % 2 ^ 32 ||| v
    let bits := bits + 6
    if bits ≥ 8 then
      UInt8.ofNat (acc >>> (bits - 8)) ::
        drain acc (bits - 8) rest
    else
      drain acc bits rest

--------------------
-- The Accumulator
--------------------

theorem shift_or
    (acc : Nat)
    {v : Nat}
    (hV : v < 64) :
    (acc <<< 6) % 2 ^ 32 ||| v =
      acc % 2 ^ 26 * 2 ^ 6 + v := by
  have hShift : (acc <<< 6) % 2 ^ 32 = acc % 2 ^ 26 * 2 ^ 6 := by
    rw [Nat.shiftLeft_eq]
    omega
  rw [hShift, Nat.mul_comm (acc % 2 ^ 26) (2 ^ 6)]
  exact (Nat.two_pow_add_eq_or_of_lt hV _).symm

theorem ofNat_eq
    {m n : Nat}
    (hSame : m % 256 = n % 256) :
    UInt8.ofNat m = UInt8.ofNat n := by
  apply UInt8.toNat_inj.mp
  rw [UInt8.toNat_ofNat', UInt8.toNat_ofNat']
  exact hSame

/-
  The accumulator holds the bits of its place, whatever else
  is above them.
-/
theorem drain_eq
    {vs : List Nat}
    (hVs : ∀ v ∈ vs, v < 64)
    (place : Place)
    (acc : Nat) :
    drain acc place.bits vs =
      read place (acc % 2 ^ place.bits) vs := by
  induction vs generalizing place acc with
  | nil => rfl
  | cons v rest ih =>
      have hV := hVs v List.mem_cons_self
      have hRest := ih (fun w hW =>
        hVs w (List.mem_cons_of_mem v hW))
      have hAcc := shift_or acc hV
      cases place with
      | first =>
          have hHeld : (acc % 2 ^ 26 * 2 ^ 6 + v) % 2 ^ 6 = v := by
            omega
          have hSame := hRest .second (acc % 2 ^ 26 * 2 ^ 6 + v)
          change drain _ 6 rest = read .second _ rest at hSame
          rw [Place.bits, hHeld] at hSame
          change drain _ 6 rest = read .second v rest
          rw [hAcc, hSame]
      | second =>
          have hHeld :
              (acc % 2 ^ 26 * 2 ^ 6 + v) % 2 ^ 4 = v % 16 := by
            omega
          have hByte :
              UInt8.ofNat ((acc % 2 ^ 26 * 2 ^ 6 + v) >>> 4) =
                UInt8.ofNat (acc % 2 ^ 6 * 4 + v / 16) := by
            apply ofNat_eq
            rw [Nat.shiftRight_eq_div_pow]
            omega
          have hSame := hRest .third (acc % 2 ^ 26 * 2 ^ 6 + v)
          change drain _ 4 rest = read .third _ rest at hSame
          rw [Place.bits, hHeld] at hSame
          rw [← hAcc] at hByte hSame
          exact congrArg₂ List.cons hByte hSame
      | third =>
          have hHeld :
              (acc % 2 ^ 26 * 2 ^ 6 + v) % 2 ^ 2 = v % 4 := by
            omega
          have hByte :
              UInt8.ofNat ((acc % 2 ^ 26 * 2 ^ 6 + v) >>> 2) =
                UInt8.ofNat (acc % 2 ^ 4 * 16 + v / 4) := by
            apply ofNat_eq
            rw [Nat.shiftRight_eq_div_pow]
            omega
          have hSame := hRest .fourth (acc % 2 ^ 26 * 2 ^ 6 + v)
          change drain _ 2 rest = read .fourth _ rest at hSame
          rw [Place.bits, hHeld] at hSame
          rw [← hAcc] at hByte hSame
          exact congrArg₂ List.cons hByte hSame
      | fourth =>
          have hHeld :
              (acc % 2 ^ 26 * 2 ^ 6 + v) % 2 ^ 0 = 0 := by
            omega
          have hByte :
              UInt8.ofNat ((acc % 2 ^ 26 * 2 ^ 6 + v) >>> 0) =
                UInt8.ofNat (acc % 2 ^ 2 * 64 + v) := by
            apply ofNat_eq
            rw [Nat.shiftRight_eq_div_pow]
            omega
          have hSame := hRest .first (acc % 2 ^ 26 * 2 ^ 6 + v)
          change drain _ 0 rest = read .first _ rest at hSame
          rw [Place.bits, hHeld] at hSame
          rw [← hAcc] at hByte hSame
          exact congrArg₂ List.cons hByte hSame

/- A group completes a byte everywhere but at its first place. -/
theorem length_read
    (vs : List Nat)
    (place : Place)
    (h : Nat) :
    (read place h vs).length =
      match place with
      | .first => vs.length * 3 / 4
      | .second => (vs.length * 3 + 3) / 4
      | .third => (vs.length * 3 + 2) / 4
      | .fourth => (vs.length * 3 + 1) / 4 := by
  induction vs generalizing place h with
  | nil => cases place <;> rfl
  | cons v rest ih =>
      rw [read, List.length_append, ih, List.length_cons]
      cases place with
      | first | second | third | fourth =>
          simp only [byte, Place.next, List.length_nil,
            List.length_singleton]
          omega

--------------------
-- Bytes and Their Groups
--------------------

theorem ofBytes_lt
    (bytes : List UInt8) :
    ∀ v ∈ ofBytes bytes, v < 64 := by
  intro v hV
  induction bytes using ofBytes.induct with
  | case1 => cases hV
  | case2 a =>
      have hA := a.toNat_lt
      simp only [ofBytes, List.mem_cons, List.not_mem_nil,
        or_false] at hV
      omega
  | case3 a b =>
      have hA := a.toNat_lt
      have hB := b.toNat_lt
      simp only [ofBytes, List.mem_cons, List.not_mem_nil,
        or_false] at hV
      omega
  | case4 a b c rest ih =>
      have hA := a.toNat_lt
      have hB := b.toNat_lt
      have hC := c.toNat_lt
      simp only [ofBytes, List.mem_cons] at hV
      rcases hV with h | h | h | h | h
      · omega
      · omega
      · omega
      · omega
      · exact ih h

theorem read_four
    (h v w x y : Nat)
    (rest : List Nat) :
    read .first h (v :: w :: x :: y :: rest) =
      UInt8.ofNat (v * 4 + w / 16) ::
        UInt8.ofNat (w % 16 * 16 + x / 4) ::
          UInt8.ofNat (x % 4 * 64 + y) :: read .first 0 rest :=
  rfl

theorem byte_of_groups (a b c : UInt8) :
    UInt8.ofNat
        (a.toNat / 4 * 4 + (a.toNat % 4 * 16 + b.toNat / 16) / 16) =
      a ∧
    UInt8.ofNat
        ((a.toNat % 4 * 16 + b.toNat / 16) % 16 * 16 +
          (b.toNat % 16 * 4 + c.toNat / 64) / 4) = b ∧
    UInt8.ofNat
        ((b.toNat % 16 * 4 + c.toNat / 64) % 4 * 64 +
          c.toNat % 64) = c := by
  have hA := a.toNat_lt
  have hB := b.toNat_lt
  have hC := c.toNat_lt
  have hByte :
      ∀ (d : UInt8) {n : Nat}, n = d.toNat → UInt8.ofNat n = d := by
    rintro d n rfl
    exact UInt8.ofNat_toNat
  exact ⟨hByte a (by omega), hByte b (by omega),
    hByte c (by omega)⟩

/- The groups of bytes are read as those bytes. -/
theorem read_ofBytes (bytes : List UInt8) :
    read .first 0 (ofBytes bytes) = bytes := by
  induction bytes using ofBytes.induct with
  | case1 => rfl
  | case2 a =>
      have hA := (byte_of_groups a 0 0).1
      simp only [UInt8.toNat_zero, Nat.zero_div, Nat.add_zero]
        at hA
      change [UInt8.ofNat
        (a.toNat / 4 * 4 + a.toNat % 4 * 16 / 16)] = [a]
      rw [hA]
  | case3 a b =>
      obtain ⟨hA, hB, -⟩ := byte_of_groups a b 0
      simp only [UInt8.toNat_zero, Nat.zero_div, Nat.add_zero]
        at hB
      change [UInt8.ofNat
          (a.toNat / 4 * 4 +
            (a.toNat % 4 * 16 + b.toNat / 16) / 16),
        UInt8.ofNat
          ((a.toNat % 4 * 16 + b.toNat / 16) % 16 * 16 +
            b.toNat % 16 * 4 / 4)] = [a, b]
      rw [hA, hB]
  | case4 a b c rest ih =>
      obtain ⟨hA, hB, hC⟩ := byte_of_groups a b c
      rw [ofBytes, read_four, hA, hB, hC, ih]

end Sextets
