import SentinelCommand.PyInt.Acceptance

/-
  `parse_pydantic_int`, `optional_int` and
  `optional_int_in_range` of `query.rs`, for a body whose
  numbers are exact.

  An integer that `i64` does not hold reaches the bounds as
  one of three things: a saturated float, the sign of a big
  integer, or an error of the text. None is in bounds.

  Key definitions include:
    * `Query.parsePydanticInt`
    * `Query.optionalIntInRange`

  Correctness is proven by:
    * `Query.parsePydanticInt_of_denotes`
    * `Query.optionalIntInRange_iff`
-/

--------------------
-- Errors of a Body
--------------------

namespace SentinelCommand

namespace Query

open CooldownArithmetic PyInt

inductive Loc where
  | key (name : String)
  | index (i : Nat)
  deriving DecidableEq, Repr

/- One entry of the 422 envelope; `ctx` names a bound. -/
structure FieldError where
  kind : String
  loc : List Loc
  msg : String
  input : Value
  ctx : Option (String × Int)

/- The errors so far, and where their fields are. -/
structure BodyErrors where
  within : List Loc
  errors : List FieldError

def BodyErrors.push
    (errs : BodyErrors)
    (kind field msg : String)
    (input : Value)
    (ctx : Option (String × Int)) : BodyErrors where
  within := errs.within
  errors := errs.errors ++
    [{ kind := kind
       loc := .key "body" :: errs.within ++ [.key field]
       msg := msg
       input := input
       ctx := ctx }]

/- `Value::get` of a key. -/
def field (body : Value) (name : String) : Option Value :=
  match body with
  | .object fields => fields.lookup name
  | _ => none

inductive IntError where
  | parsing
  | parsingSize
  | fromFloat
  | type
  deriving DecidableEq, Repr

def IntError.kind : IntError → String
| .parsing => "int_parsing"
| .parsingSize => "int_parsing_size"
| .fromFloat => "int_from_float"
| .type => "int_type"

def IntError.msg : IntError → String
| .parsing =>
    "Input should be a valid integer, unable to parse " ++
      "string as an integer"
| .parsingSize =>
    "Unable to parse input string as an integer, exceeded " ++
      "maximum size"
| .fromFloat =>
    "Input should be a valid integer, got a number with a " ++
      "fractional part"
| .type => "Input should be a valid integer"

open Machine CooldownArithmetic PyInt Coercion

/- `PyInt::ge`, `PyInt::le` and `PyInt::small`. -/
def atLeast (bound : Int) : PyInt → Bool
| .small v => bound ≤ v
| .big negative => !negative

def atMost (bound : Int) : PyInt → Bool
| .small v => v ≤ bound
| .big negative => negative

def small : PyInt → Option Int
| .small v => some v
| .big _ => none

/- `f.fract() == 0.0` of a finite float. -/
def isWhole (q : ℚ) : Bool :=
  q - Binary64.truncate q = 0

def parseNumber (n : Number) : Except IntError PyInt :=
  match n.asI64 with
  | some i => .ok (.small i)
  | none =>
      if isWhole n.asF64 then
        .ok (.small (castI64 n.asF64))
      else
        .error .fromFloat

def parseText (text : List Char) : Except IntError PyInt :=
  match strAsInt text with
  | .ok v => .ok v
  | .error .parsing => .error .parsing
  | .error .parsingSize => .error .parsingSize

def parsePydanticInt : Value → Except IntError PyInt
| .bool value => .ok (.small (if value then 1 else 0))
| .number n => parseNumber n
| .string text => parseText text
| _ => .error .type

def optionalInt
    (errs : BodyErrors)
    (body : Value)
    (name : String) : BodyErrors × Option PyInt :=
  match field body name with
  | none | some .null => (errs, none)
  | some value =>
      match parsePydanticInt value with
      | .ok n => (errs, some n)
      | .error err =>
          (errs.push err.kind name err.msg value none, none)

def optionalIntInRange
    (errs : BodyErrors)
    (body : Value)
    (name : String)
    (min max : Int) : BodyErrors × Option Int :=
  match optionalInt errs body name with
  | (errs, none) => (errs, none)
  | (errs, some value) =>
      let input := (field body name).getD .null
      if atLeast min value = false then
        (errs.push "greater_than_equal" name
          ("Input should be greater than or equal to " ++
            toString min)
          input (some ("ge", min)), none)
      else if atMost max value = false then
        (errs.push "less_than_equal" name
          ("Input should be less than or equal to " ++
            toString max)
          input (some ("le", max)), none)
      else
        (errs, small value)

/- The exact value of a number. -/
def exactValue : Number → ℚ
| .posInt value _ => value
| .negInt value _ _ => value
| .float f => f.value

/-
  A boolean, a number without a fraction, or a text that
  spells an integer, of any size and any length.
-/
inductive Denotes : Value → Int → Prop where
  | bool {value : Bool} :
      Denotes (.bool value) (if value then 1 else 0)
  | number {n : Number} {k : Int} :
      exactValue n = k → Denotes (.number n) k
  | string {text : List Char} {k : Int} :
      Accepts (Text.trim text) k → Denotes (.string text) k

theorem denotes_unique
    {value : Value}
    {k m : Int}
    (hK : Denotes value k)
    (hM : Denotes value m) :
    k = m := by
  cases hK with
  | bool =>
      cases hM
      rfl
  | number hExact =>
      cases hM with
      | number hExact' =>
          exact_mod_cast hExact.symm.trans hExact'
  | string hAccepts =>
      cases hM with
      | string hAccepts' =>
          exact accepts_unique hAccepts hAccepts'

--------------------
-- What Reaches the Bounds
--------------------

open Machine CooldownArithmetic PyInt Coercion Binary64

/- An integer past `i64` is at its end as a saturated float. -/
theorem castI64_ofInt
    {n : Nat}
    (hLow : i64Max < n)
    (hHigh : n < 2 ^ 64) :
    castI64 (Binary64.ofInt n) = i64Max := by
  have hExcess : excess n ≤ 11 :=
    excess_le hHigh
  have hMultiple : 2 ^ excess n ∣ 2 ^ 63 :=
    Nat.pow_dvd_pow 2 (by omega)
  have hPos : 0 < 2 ^ excess n := Nat.two_pow_pos _
  unfold i64Max at hLow
  have hRound : 2 ^ 63 ≤ round n :=
    le_round_of_near hMultiple (by omega)
  unfold castI64
  rw [ofInt_natCast, truncate_intCast]
  unfold i64Min i64Max
  omega

theorem isWhole_iff (q : ℚ) :
    isWhole q = true ↔ q = truncate q := by
  simp [isWhole, sub_eq_zero]

theorem parseText_eq_ok_iff
    (text : List Char)
    (v : PyInt) :
    parseText text = .ok v ↔ strAsInt text = .ok v := by
  unfold parseText
  cases hText : strAsInt text with
  | ok w =>
      constructor
      · intro h
        cases h
        rfl
      · intro h
        cases h
        rfl
  | error err =>
      constructor
      · intro h
        cases err <;> cases h
      · intro h
        cases h

/- A float is read when it is whole, and clamped. -/
theorem parseNumber_float
    (f : Finite)
    (v : PyInt) :
    parseNumber (.float f) = .ok v ↔
      f.value = truncate f.value ∧
        v = .small (castI64 f.value) := by
  change
    (if isWhole f.value = true then
        Except.ok (PyInt.small (castI64 f.value))
      else
        Except.error IntError.fromFloat) = _ ↔ _
  rw [← isWhole_iff]
  by_cases hWhole : isWhole f.value = true
  · rw [if_pos hWhole]
    constructor
    · intro h
      cases h
      exact ⟨hWhole, rfl⟩
    · rintro ⟨-, rfl⟩
      rfl
  · rw [if_neg hWhole]
    constructor
    · intro h
      cases h
    · exact fun h => absurd h.1 hWhole

theorem parseNumber_posInt
    {n : Nat}
    (hFits : n < 2 ^ 64) :
    parseNumber (.posInt n hFits) =
      .ok (.small (Min.min i64Max n)) := by
  unfold parseNumber
  simp only [Number.asI64]
  by_cases hSmall : (n : Int) ≤ i64Max
  · rw [if_pos hSmall, min_eq_right hSmall]
  · have hLarge : i64Max < (n : Int) := not_le.mp hSmall
    have hAs :
        (Number.posInt n hFits).asF64 = Binary64.ofInt n := rfl
    have hWhole :
        isWhole (Number.posInt n hFits).asF64 = true := by
      rw [hAs, isWhole_iff, ofInt_natCast, truncate_intCast]
    rw [if_neg hSmall, min_eq_left hLarge.le]
    dsimp only
    rw [if_pos hWhole, hAs, castI64_ofInt hLarge hFits]

/- What is denoted and fits is what is read. -/
theorem parsePydanticInt_of_denotes
    {value : Value}
    {k : Int}
    (hDenotes : Denotes value k)
    (hIn : InI64 k) :
    parsePydanticInt value = .ok (.small k) := by
  cases hDenotes with
  | bool => rfl
  | string hAccepts =>
      exact (parseText_eq_ok_iff _ _).mpr
        ((strAsInt_eq_small_iff _ hIn).mpr hAccepts)
  | number hExact =>
      rename_i n
      cases n with
      | posInt value hFits =>
          change ((value : Int) : ℚ) = k at hExact
          have hSame : (value : Int) = k := Int.cast_inj.mp hExact
          refine (parseNumber_posInt hFits).trans ?_
          rw [hSame, min_eq_right hIn.2]
      | negInt value hLow hNegative =>
          have hSame : value = k := Int.cast_inj.mp hExact
          rw [← hSame]
          rfl
      | float f =>
          have hSame : f.value = (k : ℚ) := hExact
          have hClamp : castI64 f.value = k := by
            unfold castI64
            rw [hSame, truncate_intCast]
            unfold InI64 at hIn
            omega
          refine (parseNumber_float f _).mpr ⟨?_, ?_⟩
          · rw [hSame, truncate_intCast]
          · rw [hClamp]

/- What is read strictly inside `i64` is denoted. -/
theorem denotes_of_parsePydanticInt
    {value : Value}
    {k : Int}
    (hRead : parsePydanticInt value = .ok (.small k))
    (hLow : i64Min < k)
    (hHigh : k < i64Max) :
    Denotes value k := by
  have hIn : InI64 k := ⟨hLow.le, hHigh.le⟩
  cases value with
  | null => cases hRead
  | array items => cases hRead
  | object fields => cases hRead
  | bool value =>
      cases hRead
      exact Denotes.bool
  | string text =>
      exact Denotes.string
        ((strAsInt_eq_small_iff _ hIn).mp
          ((parseText_eq_ok_iff _ _).mp hRead))
  | number n =>
      apply Denotes.number
      cases n with
      | negInt value _ _ =>
          cases hRead
          rfl
      | posInt value hFits =>
          change parseNumber _ = _ at hRead
          rw [parseNumber_posInt hFits] at hRead
          cases hRead
          have hSame : Min.min i64Max (value : Int) = value := by
            omega
          rw [hSame]
          rfl
      | float f =>
          obtain ⟨hWhole, hV⟩ := (parseNumber_float f _).mp hRead
          cases hV
          have hInside :
              castI64 f.value = truncate f.value := by
            unfold castI64 at hLow hHigh ⊢
            omega
          rw [hInside]
          exact hWhole

/- The bounds are checked on the integer that was read. -/
theorem optionalIntInRange_of_ok
    (errs : BodyErrors)
    {body value : Value}
    {name : String}
    {v : PyInt}
    (min max : Int)
    (hField : field body name = some value)
    (hRead : parsePydanticInt value = .ok v) :
    optionalIntInRange errs body name min max =
      if atLeast min v = false then
        (errs.push "greater_than_equal" name
          ("Input should be greater than or equal to " ++
            toString min)
          value (some ("ge", min)), none)
      else if atMost max v = false then
        (errs.push "less_than_equal" name
          ("Input should be less than or equal to " ++
            toString max)
          value (some ("le", max)), none)
      else
        (errs, small v) := by
  have hInt : optionalInt errs body name = (errs, some v) := by
    unfold optionalInt
    rw [hField]
    cases value with
    | null => cases hRead
    | bool | number | string | array | object =>
        dsimp only
        rw [hRead]
  unfold optionalIntInRange
  rw [hInt, hField]
  rfl

theorem optionalIntInRange_of_error
    (errs : BodyErrors)
    {body value : Value}
    {name : String}
    {err : IntError}
    (min max : Int)
    (hField : field body name = some value)
    (hRead : parsePydanticInt value = .error err) :
    (optionalIntInRange errs body name min max).2 = none := by
  have hInt : (optionalInt errs body name).2 = none := by
    unfold optionalInt
    rw [hField]
    cases value with
    | null => rfl
    | bool | number | string | array | object =>
        dsimp only
        rw [hRead]
  unfold optionalIntInRange
  cases hPair : optionalInt errs body name with
  | mk errs' read =>
      rw [hPair] at hInt
      cases hInt
      rfl

/- What is returned was read, and is within the bounds. -/
theorem read_of_some
    (errs : BodyErrors)
    {body value : Value}
    {name : String}
    {min max k : Int}
    (hField : field body name = some value)
    (hSome :
      (optionalIntInRange errs body name min max).2 = some k) :
    parsePydanticInt value = .ok (.small k) ∧
      min ≤ k ∧ k ≤ max := by
  cases hRead : parsePydanticInt value with
  | error err =>
      rw [optionalIntInRange_of_error errs min max hField hRead]
        at hSome
      cases hSome
  | ok v =>
      rw [optionalIntInRange_of_ok errs min max hField hRead]
        at hSome
      split at hSome
      · cases hSome
      · split at hSome
        · cases hSome
        · rename_i hLow hHigh
          cases v with
          | small n =>
              cases hSome
              rw [Bool.not_eq_false] at hLow hHigh
              exact ⟨rfl, of_decide_eq_true hLow,
                of_decide_eq_true hHigh⟩
          | big negative => cases hSome

theorem some_of_read
    (errs : BodyErrors)
    {body value : Value}
    {name : String}
    {min max k : Int}
    (hField : field body name = some value)
    (hRead : parsePydanticInt value = .ok (.small k))
    (hLow : min ≤ k)
    (hHigh : k ≤ max) :
    optionalIntInRange errs body name min max =
      (errs, some k) := by
  have hAtLeast : atLeast min (.small k) = true :=
    decide_eq_true hLow
  have hAtMost : atMost max (.small k) = true :=
    decide_eq_true hHigh
  rw [optionalIntInRange_of_ok errs min max hField hRead,
    hAtLeast, hAtMost]
  rfl

/-
  A field is read without an error exactly when it denotes an
  integer within the bounds; and nothing that denotes an
  integer beyond 64 bits is read.
-/
theorem optionalIntInRange_iff
    (errs : BodyErrors)
    (body value : Value)
    (name : String)
    (min max : Int)
    (hField : field body name = some value)
    (hMin : i64Min < min)
    (hMax : max < i64Max) :
    (∀ k,
      optionalIntInRange errs body name min max =
          (errs, some k) ↔
        Denotes value k ∧ min ≤ k ∧ k ≤ max) ∧
      ∀ n, Denotes value n → ¬InI64 n →
        (optionalIntInRange errs body name min max).2 = none := by
  have hFound :
      ∀ k, (optionalIntInRange errs body name min max).2 =
          some k →
        Denotes value k ∧ min ≤ k ∧ k ≤ max := by
    intro k hSome
    obtain ⟨hRead, hLow, hHigh⟩ := read_of_some errs hField hSome
    exact ⟨denotes_of_parsePydanticInt hRead (by omega)
      (by omega), hLow, hHigh⟩
  constructor
  · intro k
    constructor
    · intro h
      exact hFound k (congrArg Prod.snd h)
    · rintro ⟨hValue, hLow, hHigh⟩
      exact some_of_read errs hField
        (parsePydanticInt_of_denotes hValue
          ⟨by omega, by omega⟩) hLow hHigh
  · intro n hValue hOut
    cases hResult :
        (optionalIntInRange errs body name min max).2 with
    | none => rfl
    | some k =>
        obtain ⟨hDenotes, hLow, hHigh⟩ := hFound k hResult
        have hSame := denotes_unique hValue hDenotes
        exact absurd ⟨by omega, by omega⟩ hOut

theorem optionalIntInRange_iff_text :
    optionalIntInRange ⟨[], []⟩
        (.object [("width", .string "+17.0".toList)])
        "width" 1 7680 =
      (⟨[], []⟩, some 17) := by
  refine ((optionalIntInRange_iff ⟨[], []⟩
    (.object [("width", .string "+17.0".toList)])
    (.string "+17.0".toList) "width" 1 7680 rfl
    (by decide) (by decide)).1 17).mpr ?_
  refine ⟨Denotes.string ?_, by decide, by decide⟩
  have hBody : Numeral.Grouped "17".toList "17".toList :=
    Numeral.grouped_of_isNumeral
      (Numeral.isNumeral_of_all rfl) (by decide)
  exact Accepts.number Sign.plus
    (Magnitude.plain hBody (by unfold Numeral.Trimmed; decide))
    (Or.inr ⟨['0'], by decide, by simp, rfl⟩)

end Query

end SentinelCommand
