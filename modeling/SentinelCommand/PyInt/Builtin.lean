import SentinelCommand.Lib.Doubles
import SentinelCommand.Lib.Grouped
import SentinelCommand.Notifications.CooldownArithmetic

/-
  The two readings of the builtin `int()` in `pyint.rs`:
  `python_int` of a text and `python_int_of_json` of a value.

  The sign of a text is applied after its digits were read as
  a 64-bit number, and a float is compared with the bounds of
  `i64` as floats. Each is one value off, at one end.

  Key definitions include:
    * `PyInt.Number`, `PyInt.Value`
    * `PyInt.pythonIntOfJson`

  Correctness is proven by:
    * `PyInt.pythonInt_of_spells`
    * `PyInt.conversions_exact_iff`
-/

--------------------
-- JSON Numbers
--------------------

namespace SentinelCommand

namespace PyInt

open Machine

/-
  `serde_json::Number`: integers as far as 64 bits go, and
  finite floats.
-/
inductive Number where
  | posInt (value : Nat) (fits : value < 2 ^ 64)
  | negInt (value : Int) (low : i64Min ≤ value)
      (negative : value < 0)
  | float (value : Binary64.Finite)

/- `serde_json::Value`. -/
inductive Value where
  | null
  | bool (value : Bool)
  | number (value : Number)
  | string (text : List Char)
  | array (items : List Value)
  | object (fields : List (String × Value))

namespace Number

def asI64 : Number → Option Int
| .posInt value _ =>
    if (value : Int) ≤ i64Max then some value else none
| .negInt value _ _ => some value
| .float _ => none

def asU64 : Number → Option Nat
| .posInt value _ => some value
| .negInt _ _ _ => none
| .float _ => none

def asF64 : Number → ℚ
| .posInt value _ => Binary64.ofInt value
| .negInt value _ _ => Binary64.ofInt value
| .float f => f.value

end Number

/- `as i64` of a float saturates. -/
def castI64 (q : ℚ) : Int :=
  max i64Min (min i64Max (Binary64.truncate q))

end PyInt

--------------------
-- `int()` of a Value
--------------------

namespace PyInt

open Machine CooldownArithmetic

/- A 64-bit unsigned number as an integer of any size. -/
def ofU64 (u : Nat) : PyInt :=
  if (u : Int) ≤ i64Max then .small u else .big false

/- `as_f64` is finite, so the guard on it never refuses. -/
def pythonIntOfNumber (n : Number) : PyInt :=
  match n.asI64 with
  | some i => .small i
  | none =>
      match n.asU64 with
      | some u => ofU64 u
      | none =>
          let truncated : ℚ := Binary64.truncate n.asF64
          if Binary64.ofInt i64Min ≤ truncated ∧
              truncated ≤ Binary64.ofInt i64Max then
            .small (castI64 truncated)
          else
            .big (truncated < 0)

def pythonIntOfJson : Value → Option PyInt
| .bool value => some (.small (if value then 1 else 0))
| .number n => some (pythonIntOfNumber n)
| .string text => pythonInt text
| _ => none

/- A sign, or none. -/
def signed (negative : Bool) (n : Nat) : Int :=
  if negative then -n else n

inductive Sign : List Char → Bool → Prop where
  | none : Sign [] false
  | plus : Sign ['+'] false
  | minus : Sign ['-'] true

/-
  The text of an integer: a sign and digits, grouped or not,
  between blanks.
-/
def Spells (raw : List Char) (n : Int) : Prop :=
  ∃ left sign negative body digits right,
    raw = left ++ (sign ++ body) ++ right ∧
      Text.Blank left ∧ Text.Blank right ∧
      Sign sign negative ∧
      Numeral.Grouped body digits ∧
      n = signed negative (Numeral.value digits)

/- An integer as it should be kept. -/
def ofInteger (n : Int) : PyInt :=
  if InI64 n then .small n else .big (n < 0)

/- The integer a number is when it is cut toward zero. -/
def Number.integer : Number → Int
| .posInt value _ => value
| .negInt value _ _ => value
| .float f => Binary64.truncate f.value

/-
  A text gives a small integer exactly when it spells it and
  `i64` holds it, and a big one exactly when it spells one of
  that sign beyond.
-/
structure ExactText (raw : List Char) : Prop where
  small : ∀ n,
    pythonInt raw = some (.small n) ↔ Spells raw n ∧ InI64 n
  big : ∀ negative,
    pythonInt raw = some (.big negative) ↔
      ∃ n, Spells raw n ∧ ¬InI64 n ∧ negative = decide (n < 0)

def ExactNumber (n : Number) : Prop :=
  pythonIntOfJson (.number n) = some (ofInteger n.integer)

--------------------
-- Texts
--------------------

open Machine CooldownArithmetic Numeral

/- The loop keeps the digits of a grouped numeral. -/
theorem cleanDigits_iff
    (text kept clean : List Char) :
    (cleanDigits text false kept = some clean ↔
        ∃ digits, Grouped text digits ∧
          clean = kept ++ digits) ∧
      (cleanDigits text true kept = some clean ↔
        ∃ digits, Continues text digits ∧
          clean = kept ++ digits) := by
  induction text generalizing kept with
  | nil =>
      constructor
      · constructor
        · intro h
          cases h
        · rintro ⟨digits, hGrouped, -⟩
          cases hGrouped
      · constructor
        · intro h
          cases h
          exact ⟨[], Continues.done, (List.append_nil _).symm⟩
        · rintro ⟨digits, hContinues, rfl⟩
          cases hContinues with
          | done => simp [cleanDigits]
          | digits hGrouped => cases hGrouped
  | cons c rest ih =>
      by_cases hUnderscore : c = '_'
      · subst hUnderscore
        have hNot : ∀ digits, ¬Grouped ('_' :: rest) digits := by
          intro digits hGrouped
          obtain ⟨d, tail, hText, hDigit⟩ := hGrouped.head
          cases hText
          cases hDigit
        constructor
        · constructor
          · intro h
            cases h
          · rintro ⟨digits, hGrouped, -⟩
            exact absurd hGrouped (hNot digits)
        · have hStep :
              cleanDigits ('_' :: rest) true kept =
                cleanDigits rest false kept := rfl
          rw [hStep, (ih kept).1]
          constructor
          · rintro ⟨digits, hGrouped, hClean⟩
            exact ⟨digits, Continues.group hGrouped, hClean⟩
          · rintro ⟨digits, hContinues, hClean⟩
            cases hContinues with
            | digits hGrouped => exact absurd hGrouped (hNot _)
            | group hGrouped => exact ⟨digits, hGrouped, hClean⟩
      · by_cases hDigit : c.isDigit = true
        · have hStep :
              ∀ previous, cleanDigits (c :: rest) previous kept =
                cleanDigits rest true (kept ++ [c]) := by
            intro previous
            simp [cleanDigits, hUnderscore, hDigit]
          have hGrouped :
              (∃ digits, Grouped (c :: rest) digits ∧
                clean = kept ++ digits) ↔
              ∃ more, Continues rest more ∧
                clean = kept ++ [c] ++ more := by
            constructor
            · rintro ⟨digits, hText, rfl⟩
              obtain ⟨more, hMore, rfl⟩ :=
                (continues_cons_iff hDigit).mp hText
              exact ⟨more, hMore, by simp⟩
            · rintro ⟨more, hMore, rfl⟩
              exact ⟨c :: more,
                (continues_cons_iff hDigit).mpr
                  ⟨more, hMore, rfl⟩, by simp⟩
          have hContinues :
              ∀ digits, Continues (c :: rest) digits ↔
                Grouped (c :: rest) digits := by
            intro digits
            constructor
            · intro h
              cases h with
              | digits h => exact h
              | group h => exact absurd rfl hUnderscore
            · exact Continues.digits
          simp only [hStep, hContinues, hGrouped]
          exact ⟨(ih (kept ++ [c])).2, (ih (kept ++ [c])).2⟩
        · have hStep :
              ∀ previous,
                cleanDigits (c :: rest) previous kept = none := by
            intro previous
            simp [cleanDigits, hUnderscore, hDigit]
          have hNot : ∀ digits, ¬Grouped (c :: rest) digits := by
            intro digits hGrouped
            obtain ⟨d, tail, hText, hD⟩ := hGrouped.head
            cases hText
            exact hDigit hD
          have hNot' :
              ∀ digits, ¬Continues (c :: rest) digits := by
            intro digits hContinues
            cases hContinues with
            | digits h => exact hNot _ h
            | group h => exact hUnderscore rfl
          simp [hStep, hNot, hNot']

theorem isWhitespace_of_isDigit
    {c : Char}
    (hDigit : c.isDigit = true) :
    Text.isWhitespace c = false := by
  have hBounds := toNat_of_isDigit hDigit
  simp only [Text.isWhitespace, Bool.or_eq_false_iff,
    Bool.and_eq_false_iff, decide_eq_false_iff_not,
    beq_eq_false_iff_ne]
  omega

/- A sign and grouped digits have no blank at an end. -/
theorem trim_of_spelling
    {left sign body digits right : List Char}
    {negative : Bool}
    (hLeft : Text.Blank left)
    (hRight : Text.Blank right)
    (hSign : Sign sign negative)
    (hBody : Grouped body digits) :
    Text.trim (left ++ (sign ++ body) ++ right) =
      sign ++ body := by
  obtain ⟨first, rest, hFirst, hFirstDigit⟩ := hBody.head
  obtain ⟨last, hLast, hLastDigit⟩ := hBody.getLast
  apply Text.trim_padded hLeft hRight
  · intro c hC
    cases hSign with
    | none =>
        rw [hFirst] at hC
        cases hC
        exact isWhitespace_of_isDigit hFirstDigit
    | plus =>
        cases hC
        decide
    | minus =>
        cases hC
        decide
  · intro c hC
    rw [List.getLast?_append, hLast] at hC
    cases hC
    exact isWhitespace_of_isDigit hLastDigit

theorem spells_iff
    (raw : List Char)
    (n : Int) :
    Spells raw n ↔
      ∃ sign negative body digits,
        Text.trim raw = sign ++ body ∧
          Sign sign negative ∧ Grouped body digits ∧
          n = signed negative (value digits) := by
  constructor
  · rintro ⟨left, sign, negative, body, digits, right, rfl,
      hLeft, hRight, hSign, hBody, hN⟩
    exact ⟨sign, negative, body, digits,
      trim_of_spelling hLeft hRight hSign hBody,
      hSign, hBody, hN⟩
  · rintro ⟨sign, negative, body, digits, hTrim, hSign, hBody,
      hN⟩
    obtain ⟨left, right, hLeft, hRight, hRaw⟩ :=
      Text.exists_padding raw
    rw [hTrim] at hRaw
    exact ⟨left, sign, negative, body, digits, right, hRaw,
      hLeft, hRight, hSign, hBody, hN⟩

/- The digits of a numeral, parsed as 64 bits. -/
theorem parseI64_of_isNumeral
    {digits : List Char}
    (hNumeral : IsNumeral digits)
    (hNe : digits ≠ []) :
    parseI64 digits =
      if (value digits : Int) ≤ i64Max then
        some (value digits : Int)
      else
        none := by
  have hDigits :
      Machine.digits digits = some (value digits : Int) := by
    unfold Machine.digits
    rw [if_pos ⟨hNe, List.all_eq_true.mpr hNumeral⟩]
  have hParse : parseInt digits = some (value digits : Int) := by
    obtain ⟨c, rest, rfl⟩ := List.exists_cons_of_ne_nil hNe
    have hDigit := hNumeral c List.mem_cons_self
    unfold parseInt
    split
    · rename_i h
      cases h
      cases hDigit
    · rename_i h
      cases h
      cases hDigit
    · exact hDigits
  unfold parseI64
  rw [hParse, Option.filter_some]
  have hIn :
      InI64 (value digits) ↔ (value digits : Int) ≤ i64Max := by
    unfold InI64 i64Min
    omega
  simp only [decide_eq_true_eq, hIn]

/- What `python_int` makes of a sign and of digits. -/
def converted (negative : Bool) (digits : List Char) : PyInt :=
  if (value digits : Int) ≤ i64Max then
    .small (signed negative (value digits))
  else
    .big negative

/- The sign comes last, which is one integer too late. -/
theorem converted_eq
    (negative : Bool)
    (digits : List Char) :
    converted negative digits =
      if signed negative (value digits) = i64Min then
        .big true
      else
        ofInteger (signed negative (value digits)) := by
  unfold converted ofInteger InI64 signed
  by_cases hFits : (value digits : Int) ≤ i64Max
  · rw [if_pos hFits]
    cases negative with
    | false =>
        simp only [Bool.false_eq_true, if_false]
        unfold i64Min i64Max at *
        rw [if_neg (by omega), if_pos (by omega)]
    | true =>
        simp only [if_true]
        unfold i64Min i64Max at *
        rw [if_neg (by omega), if_pos (by omega)]
  · rw [if_neg hFits]
    cases negative with
    | false =>
        simp only [Bool.false_eq_true, if_false]
        unfold i64Min i64Max at *
        have hSign : ¬((value digits : Int) < 0) := by omega
        rw [if_neg (by omega), if_neg (by omega),
          decide_eq_false hSign]
    | true =>
        simp only [if_true]
        unfold i64Min i64Max at *
        by_cases hLeast :
            -(value digits : Int) = -9223372036854775808
        · rw [if_pos hLeast]
        · have hSign : -(value digits : Int) < 0 := by omega
          rw [if_neg hLeast, if_neg (by omega),
            decide_eq_true hSign]

/- `python_int` after its sign. -/
def unsigned (negative : Bool) (text : List Char) : Option PyInt :=
  if text = [] then
    none
  else
    (cleanDigits text false []).map
      (fun clean =>
        match parseI64 clean with
        | some v => .small (if negative then -v else v)
        | none => .big negative)

theorem unsigned_eq_some_iff
    (negative : Bool)
    (text : List Char)
    (r : PyInt) :
    unsigned negative text = some r ↔
      ∃ digits, Grouped text digits ∧
        r = converted negative digits := by
  have hClean :
      ∀ digits, cleanDigits text false [] = some digits ↔
        Grouped text digits := by
    intro digits
    rw [(cleanDigits_iff text [] digits).1]
    simp
  have hConverted :
      ∀ digits, Grouped text digits →
        (match parseI64 digits with
          | some v => PyInt.small (if negative then -v else v)
          | none => .big negative) =
          converted negative digits := by
    intro digits hGrouped
    obtain ⟨hNumeral, hNe⟩ := hGrouped.isNumeral
    rw [parseI64_of_isNumeral hNumeral hNe]
    unfold converted signed
    by_cases hFits : (value digits : Int) ≤ i64Max
    · simp only [if_pos hFits]
    · simp only [if_neg hFits]
  unfold unsigned
  constructor
  · intro h
    split at h
    · cases h
    · obtain ⟨digits, hDigits, hR⟩ := Option.map_eq_some_iff.mp h
      have hGrouped := (hClean digits).mp hDigits
      exact ⟨digits, hGrouped,
        hR.symm.trans (hConverted digits hGrouped)⟩
  · rintro ⟨digits, hGrouped, rfl⟩
    have hNe : text ≠ [] := by
      rintro rfl
      cases hGrouped
    rw [if_neg hNe, (hClean digits).mpr hGrouped,
      Option.map_some, hConverted digits hGrouped]

theorem pythonInt_eq_some_iff
    (raw : List Char)
    (r : PyInt) :
    pythonInt raw = some r ↔
      ∃ sign negative body digits,
        Text.trim raw = sign ++ body ∧
          Sign sign negative ∧ Grouped body digits ∧
          r = converted negative digits := by
  have hMinus :
      ∀ rest, Text.trim raw = '-' :: rest →
        pythonInt raw = unsigned true rest := by
    intro rest hTrim
    unfold pythonInt
    rw [hTrim]
    rfl
  have hPlus :
      ∀ rest, Text.trim raw = '+' :: rest →
        pythonInt raw = unsigned false rest := by
    intro rest hTrim
    unfold pythonInt
    rw [hTrim]
    rfl
  have hBare :
      (∀ rest, Text.trim raw ≠ '-' :: rest) →
        (∀ rest, Text.trim raw ≠ '+' :: rest) →
          pythonInt raw = unsigned false (Text.trim raw) := by
    intro hNoMinus hNoPlus
    unfold pythonInt
    split
    rename_i hPair
    split at hPair
    · rename_i hTrim
      exact absurd hTrim (hNoMinus _)
    · rename_i hTrim
      exact absurd hTrim (hNoPlus _)
    · cases hPair
      rfl
  constructor
  · intro h
    by_cases hDash : ∃ rest, Text.trim raw = '-' :: rest
    · obtain ⟨rest, hTrim⟩ := hDash
      rw [hMinus rest hTrim] at h
      obtain ⟨digits, hGrouped, hR⟩ :=
        (unsigned_eq_some_iff true rest r).mp h
      exact ⟨['-'], true, rest, digits, hTrim, Sign.minus,
        hGrouped, hR⟩
    · by_cases hCross : ∃ rest, Text.trim raw = '+' :: rest
      · obtain ⟨rest, hTrim⟩ := hCross
        rw [hPlus rest hTrim] at h
        obtain ⟨digits, hGrouped, hR⟩ :=
          (unsigned_eq_some_iff false rest r).mp h
        exact ⟨['+'], false, rest, digits, hTrim, Sign.plus,
          hGrouped, hR⟩
      · rw [hBare (fun rest hTrim => hDash ⟨rest, hTrim⟩)
          (fun rest hTrim => hCross ⟨rest, hTrim⟩)] at h
        obtain ⟨digits, hGrouped, hR⟩ :=
          (unsigned_eq_some_iff false _ r).mp h
        exact ⟨[], false, _, digits, rfl, Sign.none, hGrouped, hR⟩
  · intro ⟨sign, negative, body, digits, hTrim, hSign, hGrouped,
      hR⟩
    cases hSign with
    | none =>
        obtain ⟨c, rest, hBody, hDigit⟩ := hGrouped.head
        have hNot :
            ∀ d : Char, d.isDigit = false →
              ∀ others, Text.trim raw ≠ d :: others := by
          intro d hD others hSame
          rw [hTrim, hBody] at hSame
          obtain ⟨hHead, -⟩ := List.cons.inj hSame
          rw [hHead, hD] at hDigit
          cases hDigit
        rw [hBare (hNot '-' rfl) (hNot '+' rfl), hTrim]
        exact (unsigned_eq_some_iff false body r).mpr
          ⟨digits, hGrouped, hR⟩
    | plus =>
        rw [hPlus body hTrim]
        exact (unsigned_eq_some_iff false body r).mpr
          ⟨digits, hGrouped, hR⟩
    | minus =>
        rw [hMinus body hTrim]
        exact (unsigned_eq_some_iff true body r).mpr
          ⟨digits, hGrouped, hR⟩

/-
  A text that spells an integer is read as that integer,
  unless it is the least that `i64` holds.
-/
theorem pythonInt_of_spells
    {raw : List Char}
    {n : Int}
    (hSpells : Spells raw n) :
    pythonInt raw =
      some (if n = i64Min then .big true else ofInteger n) := by
  obtain ⟨sign, negative, body, digits, hTrim, hSign, hBody,
    rfl⟩ := (spells_iff raw n).mp hSpells
  rw [pythonInt_eq_some_iff, ← converted_eq]
  exact ⟨sign, negative, body, digits, hTrim, hSign, hBody, rfl⟩

theorem spells_of_pythonInt
    {raw : List Char}
    {r : PyInt}
    (hSome : pythonInt raw = some r) :
    ∃ n, Spells raw n := by
  obtain ⟨sign, negative, body, digits, hTrim, hSign, hBody, -⟩ :=
    (pythonInt_eq_some_iff raw r).mp hSome
  exact ⟨signed negative (value digits),
    (spells_iff raw _).mpr
      ⟨sign, negative, body, digits, hTrim, hSign, hBody, rfl⟩⟩

theorem spells_unique
    {raw : List Char}
    {n m : Int}
    (hN : Spells raw n)
    (hM : Spells raw m) :
    n = m := by
  obtain ⟨sign, negative, body, digits, hTrim, hSign, hBody,
    rfl⟩ := (spells_iff raw n).mp hN
  obtain ⟨sign', negative', body', digits', hTrim', hSign',
    hBody', rfl⟩ := (spells_iff raw m).mp hM
  have hSame := hTrim.symm.trans hTrim'
  obtain ⟨c, rest, rfl, hDigit⟩ := hBody.head
  obtain ⟨c', rest', rfl, hDigit'⟩ := hBody'.head
  cases hSign <;> cases hSign' <;>
    injection hSame with hFirst hRest
  · subst hFirst
    subst hRest
    rw [grouped_unique hBody hBody']
  · subst hFirst
    cases hDigit
  · subst hFirst
    cases hDigit
  · subst hFirst
    cases hDigit'
  · change c :: rest = c' :: rest' at hRest
    rw [hRest] at hBody
    rw [grouped_unique hBody hBody']
  · cases hFirst
  · subst hFirst
    cases hDigit'
  · cases hFirst
  · change c :: rest = c' :: rest' at hRest
    rw [hRest] at hBody
    rw [grouped_unique hBody hBody']

theorem ofInteger_of_in
    {n : Int}
    (hIn : InI64 n) :
    ofInteger n = .small n :=
  if_pos hIn

theorem ofInteger_of_out
    {n : Int}
    (hOut : ¬InI64 n) :
    ofInteger n = .big (n < 0) :=
  if_neg hOut

theorem ofInteger_eq_small_iff
    (n m : Int) :
    ofInteger n = .small m ↔ n = m ∧ InI64 m := by
  by_cases hIn : InI64 n
  · rw [ofInteger_of_in hIn]
    constructor
    · intro h
      cases h
      exact ⟨rfl, hIn⟩
    · rintro ⟨rfl, -⟩
      rfl
  · rw [ofInteger_of_out hIn]
    constructor
    · intro h
      cases h
    · rintro ⟨rfl, h⟩
      exact absurd h hIn

theorem ofInteger_eq_big_iff
    (n : Int)
    (negative : Bool) :
    ofInteger n = .big negative ↔
      ¬InI64 n ∧ negative = decide (n < 0) := by
  by_cases hIn : InI64 n
  · rw [ofInteger_of_in hIn]
    constructor
    · intro h
      cases h
    · exact fun h => absurd hIn h.1
  · rw [ofInteger_of_out hIn]
    constructor
    · intro h
      cases h
      exact ⟨hIn, rfl⟩
    · rintro ⟨-, rfl⟩
      rfl

theorem exactText_iff (raw : List Char) :
    ExactText raw ↔ ¬Spells raw i64Min := by
  constructor
  · intro hExact hSpells
    have hGot := pythonInt_of_spells hSpells
    rw [if_pos rfl] at hGot
    have hWant :=
      (hExact.small i64Min).mpr ⟨hSpells, by decide⟩
    rw [hGot] at hWant
    cases hWant
  · intro hLeast
    by_cases hAny : ∃ n, Spells raw n
    · obtain ⟨n, hSpells⟩ := hAny
      have hNe : n ≠ i64Min := by
        rintro rfl
        exact hLeast hSpells
      have hGot := pythonInt_of_spells hSpells
      rw [if_neg hNe] at hGot
      refine ⟨fun m => ?_, fun negative => ?_⟩
      · rw [hGot, Option.some_inj, ofInteger_eq_small_iff]
        constructor
        · rintro ⟨rfl, hIn⟩
          exact ⟨hSpells, hIn⟩
        · rintro ⟨hM, hIn⟩
          exact ⟨spells_unique hSpells hM, hIn⟩
      · rw [hGot, Option.some_inj, ofInteger_eq_big_iff]
        constructor
        · rintro ⟨hOut, hSign⟩
          exact ⟨n, hSpells, hOut, hSign⟩
        · rintro ⟨m, hM, hOut, hSign⟩
          rw [spells_unique hSpells hM]
          exact ⟨hOut, hSign⟩
    · have hNone : ∀ r, pythonInt raw ≠ some r :=
        fun r hSome => hAny (spells_of_pythonInt hSome)
      refine ⟨fun m => ?_, fun negative => ?_⟩
      · exact ⟨fun h => absurd h (hNone _),
          fun h => absurd ⟨m, h.1⟩ hAny⟩
      · constructor
        · exact fun h => absurd h (hNone _)
        · rintro ⟨m, hM, -⟩
          exact absurd ⟨m, hM⟩ hAny

--------------------
-- Numbers
--------------------

open Machine CooldownArithmetic Binary64

/- The number is the float one past the end of `i64`. -/
def AtTheEdge : Number → Prop
| .float f => f.value = 2 ^ 63
| _ => False

/- The bounds of `i64` as floats: the upper one is past it. -/
theorem ofInt_bounds :
    Binary64.ofInt i64Min = ((-2 ^ 63 : Int) : ℚ) ∧
      Binary64.ofInt i64Max = ((2 ^ 63 : Int) : ℚ) := by
  have hLow : round i64Min.natAbs = 2 ^ 63 := by decide
  have hHigh : round i64Max.natAbs = 2 ^ 63 := by decide
  constructor
  · unfold Binary64.ofInt
    rw [if_neg (by decide), hLow]
    norm_num
  · unfold Binary64.ofInt
    rw [if_pos (by decide), hHigh]
    norm_num

/- A float in the range of the comparison, cut and clamped. -/
theorem pythonIntOfNumber_float (f : Finite) :
    pythonIntOfNumber (.float f) =
      if truncate f.value = 2 ^ 63 then
        .small i64Max
      else
        ofInteger (truncate f.value) := by
  have hRange :
      (Binary64.ofInt i64Min ≤ (truncate f.value : ℚ) ∧
          (truncate f.value : ℚ) ≤ Binary64.ofInt i64Max) ↔
        -2 ^ 63 ≤ truncate f.value ∧
          truncate f.value ≤ 2 ^ 63 := by
    rw [ofInt_bounds.1, ofInt_bounds.2, Int.cast_le, Int.cast_le]
  have hSign :
      ((truncate f.value : ℚ) < 0) ↔ truncate f.value < 0 :=
    Int.cast_lt_zero
  unfold pythonIntOfNumber
  simp only [Number.asI64, Number.asU64, Number.asF64, hRange,
    hSign, castI64, truncate_intCast]
  generalize truncate f.value = t
  by_cases hEdge : t = 2 ^ 63
  · subst hEdge
    rw [if_pos (by decide), if_pos rfl]
    rfl
  · rw [if_neg hEdge]
    by_cases hIn : InI64 t
    · have hClamp : max i64Min (min i64Max t) = t := by
        unfold InI64 at hIn
        omega
      rw [ofInteger_of_in hIn, hClamp, if_pos]
      unfold InI64 i64Min i64Max at hIn
      omega
    · rw [ofInteger_of_out hIn, if_neg]
      unfold InI64 i64Min i64Max at hIn
      omega

theorem truncate_eq_edge_iff (f : Finite) :
    truncate f.value = 2 ^ 63 ↔ f.value = 2 ^ 63 := by
  constructor
  · intro hCut
    rw [eq_truncate_of_large f.representable
      (by rw [hCut]; decide), hCut]
    norm_num
  · intro hValue
    have hCast : (2 ^ 63 : ℚ) = ((2 ^ 63 : Int) : ℚ) := by
      norm_num
    rw [hValue, hCast, truncate_intCast]

theorem exactNumber_iff (n : Number) :
    ExactNumber n ↔ ¬AtTheEdge n := by
  unfold ExactNumber pythonIntOfJson
  rw [Option.some_inj]
  cases n with
  | posInt value hFits =>
      refine ⟨fun _ => not_false, fun _ => ?_⟩
      change _ = ofInteger (value : Int)
      simp only [pythonIntOfNumber, Number.asI64, Number.asU64]
      by_cases hSmall : (value : Int) ≤ i64Max
      · have hIn : InI64 value := ⟨by unfold i64Min; omega, hSmall⟩
        rw [ofInteger_of_in hIn, if_pos hSmall]
      · have hOut : ¬InI64 value := fun h => hSmall h.2
        have hSign : ¬((value : Int) < 0) := by omega
        rw [ofInteger_of_out hOut, if_neg hSmall,
          decide_eq_false hSign]
        exact if_neg hSmall
  | negInt value hLow hNegative =>
      refine ⟨fun _ => not_false, fun _ => ?_⟩
      have hIn : InI64 value :=
        ⟨hLow, by unfold i64Max; omega⟩
      exact (ofInteger_of_in hIn).symm
  | float f =>
      change _ = ofInteger (truncate f.value) ↔ _
      rw [pythonIntOfNumber_float]
      change _ ↔ ¬f.value = 2 ^ 63
      rw [← truncate_eq_edge_iff]
      by_cases hEdge : truncate f.value = 2 ^ 63
      · rw [if_pos hEdge, hEdge]
        constructor
        · intro h
          exact absurd h (by decide)
        · exact fun h => absurd rfl h
      · rw [if_neg hEdge]
        exact ⟨fun _ => hEdge, fun _ => rfl⟩

/-
  A text is read exactly unless it spells the least integer
  of `i64`, a number unless it is the float `2 ^ 63`.
-/
theorem conversions_exact_iff
    (raw : List Char)
    (n : Number) :
    (ExactText raw ↔ ¬Spells raw i64Min) ∧
      (ExactNumber n ↔ ¬AtTheEdge n) :=
  ⟨exactText_iff raw, exactNumber_iff n⟩

/- The float `2 ^ 63`. -/
def edgeFloat : Binary64.Finite where
  value := 2 ^ 63
  representable := ⟨1, 63, by decide, by decide, by decide, by norm_num⟩

/-
  The least integer of `i64` is read as one beyond it, and a
  float beyond `i64` as its greatest integer.
-/
theorem not_exact_edges :
    (Spells "-9223372036854775808".toList i64Min ∧
        InI64 i64Min ∧
        pythonInt "-9223372036854775808".toList =
          some (.big true)) ∧
      ¬InI64 (Number.integer (.float edgeFloat)) ∧
        pythonIntOfJson (.number (.float edgeFloat)) =
          some (.small i64Max) := by
  have hSpells :
      Spells "-9223372036854775808".toList i64Min := by
    refine ⟨[], ['-'], true, "9223372036854775808".toList,
      "9223372036854775808".toList, [], rfl, ?_, ?_,
      Sign.minus, ?_, ?_⟩
    · simp [Text.Blank]
    · simp [Text.Blank]
    · exact Numeral.grouped_of_isNumeral
        (Numeral.isNumeral_of_all rfl) (by decide)
    · decide
  have hEdge : Binary64.truncate edgeFloat.value = 2 ^ 63 :=
    (truncate_eq_edge_iff edgeFloat).mpr rfl
  refine ⟨⟨hSpells, by decide, ?_⟩, ?_, ?_⟩
  · rw [pythonInt_of_spells hSpells, if_pos rfl]
  · change ¬InI64 (Binary64.truncate edgeFloat.value)
    rw [hEdge]
    decide
  · exact congrArg some
      ((pythonIntOfNumber_float edgeFloat).trans (if_pos hEdge))

end PyInt

end SentinelCommand
