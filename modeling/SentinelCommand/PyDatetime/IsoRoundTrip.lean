import SentinelCommand.Lib.Numeral
import SentinelCommand.PyDatetime.IsoSafety

/-
  `fromisoformat` reads back what `iso_naive` writes, up to
  the microseconds.

  The text is read position by position; behind the date and
  the separator, each number stands with its two digits.

  Key definitions include:
    * `PyDatetime.Stands`
    * `PyDatetime.Truncates`

  Correctness is proven by:
    * `PyDatetime.fromisoformat_isoNaive`
    * `PyDatetime.fromisoformat_exact`
-/

--------------------
-- Padded Numbers
--------------------

namespace SentinelCommand

theorem isDigit_of_mem_zeroPadded
    {width number : Nat}
    {c : Char}
    (hC : c ∈ zeroPadded width number) :
    c.isDigit = true := by
  rw [zeroPadded, List.leftpad, List.mem_append] at hC
  rcases hC with hZero | hDigit
  · rw [List.eq_of_mem_replicate hZero]
    rfl
  · exact Nat.isDigit_of_mem_toDigits (by decide) (by decide) hDigit

theorem length_zeroPadded
    {width number : Nat}
    (hWidth : 0 < width)
    (hNumber : number < 10 ^ width) :
    (zeroPadded width number).length = width := by
  have hLength :=
    (Nat.length_toDigits_le_iff (by decide) hWidth).mpr hNumber
  rw [zeroPadded, List.length_leftpad]
  exact Nat.max_eq_left hLength

theorem ofDigitChars_zeroPadded (width number : Nat) :
    Nat.ofDigitChars 10 (zeroPadded width number) 0 = number := by
  rw [zeroPadded, List.leftpad, Nat.ofDigitChars_append,
    Nat.ofDigitChars_replicate_zero, Nat.mul_zero,
    Nat.ofDigitChars_ten_toDigits]

end SentinelCommand

--------------------
-- Positions
--------------------

namespace SentinelCommand

namespace PyDatetime

open Panics

/- What stands behind a position, up to the end. -/
def Stands (s : List UInt8) (pos : Nat) (text : List Char) : Prop :=
  s.drop pos = text.map byte

theorem Stands.append
    {s : List UInt8}
    {pos : Nat}
    {text rest : List Char}
    (hText : Stands s pos (text ++ rest)) :
    Stands s (pos + text.length) rest := by
  unfold Stands at hText ⊢
  rw [← List.drop_drop, hText, List.map_append,
    ← List.length_map (f := byte), List.drop_left]

theorem Stands.cons
    {s : List UInt8}
    {pos : Nat}
    {c : Char}
    {rest : List Char}
    (hText : Stands s pos (c :: rest)) :
    byteAt s pos = byte c ∧ Stands s (pos + 1) rest := by
  have hHead := congrArg List.head? hText
  rw [List.head?_drop, List.map_cons, List.head?_cons] at hHead
  have hOne : Stands s pos ([c] ++ rest) := hText
  refine ⟨?_, hOne.append⟩
  rw [byteAt, hHead]
  rfl

theorem Stands.nil
    {s : List UInt8}
    {pos : Nat}
    (hText : Stands s pos []) :
    s.length ≤ pos ∧ byteAt s pos = 0 := by
  have hLength : s.length ≤ pos := List.drop_eq_nil_iff.mp hText
  refine ⟨hLength, ?_⟩
  rw [byteAt, List.getElem?_eq_none hLength]
  rfl

/- The digits of a character, by its byte. -/
theorem byte_sub_zero
    {c : Char}
    (hC : c.isDigit = true) :
    (byte c - byte '0').toNat = c.toNat - '0'.toNat := by
  have hRange := Numeral.toNat_of_isDigit hC
  have hZero : byte '0' = 48 := rfl
  rw [byte, hZero]
  generalize c.toNat = n at hRange
  have hCases :
      n = 48 ∨ n = 49 ∨ n = 50 ∨ n = 51 ∨ n = 52 ∨ n = 53 ∨
        n = 54 ∨ n = 55 ∨ n = 56 ∨ n = 57 := by
    omega
  rcases hCases with rfl | rfl | rfl | rfl | rfl | rfl | rfl |
    rfl | rfl | rfl
  all_goals rfl

theorem i32_ok
    {E : Type}
    {value : Int}
    (hLow : -2147483648 ≤ value)
    (hHigh : value ≤ 2147483647) :
    (i32 value : Res E Int) = .ok value :=
  if_pos ⟨hLow, hHigh⟩

/- Digits are read for the number that they denote. -/
theorem parseDigits_digits
    {E : Type}
    {s : List UInt8}
    {digits rest : List Char}
    (width var : Nat)
    {pos : Nat}
    (hDigits : ∀ c ∈ digits, c.isDigit = true)
    (hWidth : width + digits.length ≤ 9)
    (hVar : var < 10 ^ width)
    (hText : Stands s pos (digits ++ rest)) :
    (parseDigits s digits.length pos (var : Int) : Res E _) =
      .ok (some (pos + digits.length,
        (Nat.ofDigitChars 10 digits var : Nat))) := by
  induction digits generalizing width pos var with
  | nil => rw [Nat.ofDigitChars_nil]; rfl
  | cons c digits ih =>
      rw [List.length_cons] at hWidth
      have hC := hDigits c List.mem_cons_self
      have hDigit := byte_sub_zero hC
      have hLess := Numeral.toNat_of_isDigit hC
      rcases Stands.cons hText with ⟨hAt, hNext⟩
      have hZero : '0'.toNat = 48 := rfl
      have hSmall : ¬ byte c - byte '0' > 9 := by
        apply UInt8.not_lt.mpr
        apply UInt8.le_iff_toNat_le.mpr
        rw [hDigit]
        change c.toNat - 48 ≤ 9
        omega
      have hPow : 10 ^ (width + 1) = 10 ^ width * 10 :=
        pow_succ 10 width
      have hNine : 10 ^ (width + 1) ≤ 10 ^ 9 :=
        Nat.pow_le_pow_right (by omega) (by omega)
      have hNumber : 10 ^ 9 = 1000000000 := rfl
      have hValue :
          (var : Int) * 10 + ((byte c - byte '0').toNat : Nat) =
            (10 * var + (c.toNat - '0'.toNat) : Nat) := by
        rw [hDigit]
        omega
      have hIndex : pos + 1 + digits.length =
          pos + (digits.length + 1) := by
        omega
      rw [List.length_cons, parseDigits, hAt,
        if_neg hSmall, i32_ok (by omega) (by omega)]
      change (i32 _ >>= _) = _
      rw [hValue, i32_ok (by omega) (by omega)]
      change parseDigits s _ _ _ = _
      rw [ih (width + 1) _
        (fun d hD => hDigits d (List.mem_cons_of_mem c hD))
        (by omega) (by omega) hNext, Nat.ofDigitChars_cons,
        hIndex]

/- A padded number is read with its width. -/
theorem digitsOr_zeroPadded
    {s : List UInt8}
    {width pos number : Nat}
    {rest : List Char}
    (rv : Int)
    (hPos : 0 < width)
    (hWidth : width ≤ 9)
    (hNumber : number < 10 ^ width)
    (hText : Stands s pos (zeroPadded width number ++ rest)) :
    digitsOr s pos width rv = .ok (pos + width, (number : Int)) ∧
      Stands s (pos + width) rest := by
  have hLength := length_zeroPadded hPos hNumber
  have hNext := hText.append
  rw [hLength] at hNext
  have hParsed :
      (parseDigits s width pos 0 : Res Int _) =
        .ok (some (pos + width, (number : Int))) := by
    have hAll : (parseDigits s _ pos 0 : Res Int _) = _ :=
      parseDigits_digits 0 0
        (fun c hC => isDigit_of_mem_zeroPadded hC) (by omega)
        (by decide) hText
    rw [hLength, ofDigitChars_zeroPadded] at hAll
    exact hAll
  refine ⟨?_, hNext⟩
  rw [digitsOr, hParsed]
  rfl

--------------------
-- Times of a Text
--------------------

/- The time of a text and the fraction behind it, if any. -/
def timeText
    (hour minute second : Nat)
    (fraction : List Char) : List Char :=
  zeroPadded 2 hour ++ ':' :: (zeroPadded 2 minute ++
    ':' :: (zeroPadded 2 second ++ fraction))

def fractionText (micros : Nat) : List Char :=
  if micros = 0 then [] else '.' :: zeroPadded 6 micros

/- Digits and the signs between them. -/
def IsTimeChar (c : Char) : Prop :=
  c.isDigit = true ∨ c = ':' ∨ c = '.'

theorem isTimeChar_timeText
    {hour minute second micros : Nat}
    {c : Char}
    (hC : c ∈ timeText hour minute second (fractionText micros)) :
    IsTimeChar c := by
  have hPadded :
      ∀ {width number : Nat},
        c ∈ zeroPadded width number → IsTimeChar c :=
    fun h => Or.inl (isDigit_of_mem_zeroPadded h)
  have hFraction : c ∈ fractionText micros → IsTimeChar c := by
    intro h
    unfold fractionText at h
    split at h
    · cases h
    · rcases List.mem_cons.mp h with h | h
      · exact Or.inr (Or.inr h)
      · exact hPadded h
  have hColon : c = ':' → IsTimeChar c :=
    fun h => Or.inr (Or.inl h)
  unfold timeText at hC
  rcases List.mem_append.mp hC with h | h
  · exact hPadded h
  rcases List.mem_cons.mp h with h | h
  · exact hColon h
  rcases List.mem_append.mp h with h | h
  · exact hPadded h
  rcases List.mem_cons.mp h with h | h
  · exact hColon h
  rcases List.mem_append.mp h with h | h
  · exact hPadded h
  · exact hFraction h

/- The byte of a character below 128 tells it. -/
theorem toNat_byte
    {c : Char}
    (hC : c.toNat < 128) :
    (byte c).toNat = c.toNat := by
  rw [byte, UInt8.toNat_ofNat']
  exact Nat.mod_eq_of_lt (by omega)

theorem byte_ne_of_isDigit
    {c d : Char}
    (hC : c.isDigit = true)
    (hD : d.toNat < 128)
    (hOther : ¬ (48 ≤ d.toNat ∧ d.toNat ≤ 57)) :
    byte c ≠ byte d := by
  intro hSame
  have hRange := Numeral.toNat_of_isDigit hC
  have hSmall : c.toNat < 128 := by omega
  have hSameNat := congrArg UInt8.toNat hSame
  rw [toNat_byte hSmall, toNat_byte hD] at hSameNat
  omega

theorem not_isZone_of_isTimeChar
    {c : Char}
    (hC : IsTimeChar c) :
    isZone (byte c) = false := by
  rcases hC with hDigit | rfl | rfl
  · have hNot :
        ∀ d : Char,
          d.toNat < 128 → ¬ (48 ≤ d.toNat ∧ d.toNat ≤ 57) →
            byte c ≠ byte d :=
      fun _ hSmall hOther => byte_ne_of_isDigit hDigit hSmall hOther
    rw [isZone, decide_eq_false_iff_not]
    rintro (h | h | h)
    · exact hNot 'Z' (by decide) (by decide) h
    · exact hNot '+' (by decide) (by decide) h
    · exact hNot '-' (by decide) (by decide) h
  · rfl
  · rfl

/- Without a zone, the end is reached. -/
theorem findZone_end
    {s : List UInt8}
    (count : Nat)
    {pos : Nat}
    (hPos : pos < s.length)
    (hCount : s.length = pos + count)
    (hNone : ∀ b ∈ s.drop pos, isZone b = false) :
    findZone s s.length pos = s.length := by
  induction count generalizing pos with
  | zero => omega
  | succ count ih =>
      have hDrop := List.drop_eq_getElem_cons hPos
      have hHere : isZone (byteAt s pos) = false := by
        apply hNone
        rw [byteAt, List.getElem?_eq_getElem hPos, hDrop]
        exact List.mem_cons_self
      rw [findZone, hHere, if_neg Bool.noConfusion]
      by_cases hLast : pos + 1 ≥ s.length
      · rw [if_pos hLast]
        omega
      · rw [if_neg hLast]
        apply ih (by omega) (by omega)
        intro b hB
        apply hNone
        rw [hDrop]
        exact List.mem_cons_of_mem _ hB

/- A field with a colon behind it. -/
theorem fieldLoop_colon
    {s : List UInt8}
    {last count i p number : Nat}
    {hasSeparator : Bool}
    {vals : Vals}
    {rest : List Char}
    (hNumber : number < 100)
    (hText : Stands s p (zeroPadded 2 number ++ ':' :: rest))
    (hLast : p + 3 < last)
    (hSeparator : i = 0 ∨ hasSeparator = true) :
    fieldLoop s last (count + 1) i p hasSeparator vals =
        fieldLoop s last count (i + 1) (p + 3) true
          (vals.set i number) ∧
      Stands s (p + 3) rest := by
  rcases digitsOr_zeroPadded (-3) (by omega) (by omega) hNumber hText
    with ⟨hDigits, hRest⟩
  rcases hRest.cons with ⟨hColon, hNext⟩
  have hSeparated :
      (if i = 0 then decide (byte ':' = byte ':')
        else hasSeparator) = true := by
    by_cases hFirst : i = 0
    · rw [if_pos hFirst]
      rfl
    · rw [if_neg hFirst]
      exact hSeparator.resolve_left hFirst
  have hInside : ¬ p + 2 + 1 ≥ last := by omega
  refine ⟨?_, hNext⟩
  rw [fieldLoop, hDigits]
  change (if _ then _ else _) = _
  rw [hColon, if_neg hInside, hSeparated, if_pos ⟨rfl, rfl⟩]

/- The last field, at the end. -/
theorem fieldLoop_end
    {s : List UInt8}
    {last count i p number : Nat}
    {hasSeparator : Bool}
    {vals : Vals}
    (hNumber : number < 100)
    (hText : Stands s p (zeroPadded 2 number ++ []))
    (hLast : last ≤ p + 3) :
    fieldLoop s last (count + 1) i p hasSeparator vals =
      .ok (.returned 0 (vals.set i number)) := by
  rcases digitsOr_zeroPadded (-3) (by omega) (by omega) hNumber hText
    with ⟨hDigits, hRest⟩
  have hInside : p + 2 + 1 ≥ last := hLast
  rw [fieldLoop, hDigits]
  change (if _ then _ else _) = _
  simp only [hRest.nil.2, if_pos hInside]
  rfl

/- The last field, before a fraction. -/
theorem fieldLoop_point
    {s : List UInt8}
    {last count i p number : Nat}
    {hasSeparator : Bool}
    {vals : Vals}
    {rest : List Char}
    (hNumber : number < 100)
    (hText : Stands s p (zeroPadded 2 number ++ '.' :: rest))
    (hLast : p + 3 < last) :
    fieldLoop s last (count + 1) i p hasSeparator vals =
        .ok (.fraction (p + 3) (vals.set i number)) ∧
      Stands s (p + 3) rest := by
  rcases digitsOr_zeroPadded (-3) (by omega) (by omega) hNumber hText
    with ⟨hDigits, hRest⟩
  rcases hRest.cons with ⟨hPoint, hNext⟩
  have hInside : ¬ p + 2 + 1 ≥ last := by omega
  have hColon : ¬ byte '.' = byte ':' := by decide
  refine ⟨?_, hNext⟩
  rw [fieldLoop, hDigits]
  change (if _ then _ else _) = _
  simp only [hPoint, hColon, if_neg hInside, and_false, if_false,
    true_or, if_true]

theorem parseFraction_six
    {s : List UInt8}
    {p micros : Nat}
    {vals : Vals}
    (hMicros : micros < 1000000)
    (hText : Stands s p (zeroPadded 6 micros))
    (hLength : s.length = p + 6) :
    parseFraction s s.length p vals =
      .ok (0, { vals with microsecond := micros }) := by
  rw [← List.append_nil (zeroPadded 6 micros)] at hText
  rcases digitsOr_zeroPadded (-3) (by omega) (by omega) hMicros hText
    with ⟨hDigits, hRest⟩
  have hSub : (sub s.length p : Res Int Nat) = .ok 6 := by
    rw [sub, if_pos (by omega), hLength, Nat.add_sub_cancel_left]
  have hSkip : skipDigits s (p + 6) = p + 6 := by
    rw [skipDigits, List.drop_eq_nil_of_le hRest.nil.1]
    rfl
  rw [parseFraction, hSub]
  change (digitsOr s p 6 (-3) >>= _) = _
  rw [hDigits]
  change Except.ok (codeOf (byteAt s (skipDigits s (p + 6))), _) = _
  rw [hSkip, hRest.nil.2]
  rfl

/- The fields of a time that ends where its text does. -/
theorem parseHhMmSsFf_timeText
    {s : List UInt8}
    {pos hour minute second micros : Nat}
    (hHour : hour < 100)
    (hMinute : minute < 100)
    (hSecond : second < 100)
    (hMicros : micros < 1000000)
    (hText :
      Stands s pos
        (timeText hour minute second (fractionText micros)))
    (hLength :
      s.length = pos + 8 + (fractionText micros).length) :
    parseHhMmSsFf s pos s.length =
      .ok (0,
        { hour, minute, second, microsecond := micros }) := by
  unfold timeText at hText
  have hFirst :
      fieldLoop s s.length 3 0 pos true {} =
          fieldLoop s s.length 2 1 (pos + 3) true { hour } ∧ _ :=
    fieldLoop_colon hHour hText (by omega) (Or.inl rfl)
  have hNext :
      fieldLoop s s.length 2 1 (pos + 3) true { hour } =
          fieldLoop s s.length 1 2 (pos + 3 + 3) true
            { hour, minute } ∧ _ :=
    fieldLoop_colon hMinute hFirst.2 (by omega) (Or.inr rfl)
  have hThird := hNext.2
  rw [parseHhMmSsFf, hFirst.1, hNext.1]
  unfold fractionText at hLength hThird
  by_cases hWhole : micros = 0
  · rw [if_pos hWhole] at hLength hThird
    rw [List.length_nil] at hLength
    rw [fieldLoop_end hSecond hThird (by omega), hWhole]
    rfl
  · rw [if_neg hWhole] at hLength hThird
    rw [List.length_cons, length_zeroPadded (by omega) hMicros]
      at hLength
    have hLast :
        fieldLoop s s.length 1 2 (pos + 3 + 3) true
            { hour, minute } =
          .ok (.fraction _ { hour, minute, second }) ∧ _ :=
      fieldLoop_point hSecond hThird (by omega)
    rw [hLast.1]
    exact parseFraction_six hMicros hLast.2 (by omega)

/- A time without a zone, up to the end of the text. -/
theorem parseIsoformatTime_timeText
    {s : List UInt8}
    {pos hour minute second micros : Nat}
    (hHour : hour < 100)
    (hMinute : minute < 100)
    (hSecond : second < 100)
    (hMicros : micros < 1000000)
    (hText :
      Stands s pos
        (timeText hour minute second (fractionText micros)))
    (hLength :
      s.length = pos + 8 + (fractionText micros).length) :
    parseIsoformatTime s pos (s.length - pos) =
      .ok (0,
        { hmsUs :=
            { hour, minute, second, microsecond := micros } }) := by
  have hNone : ∀ b ∈ s.drop pos, isZone b = false := by
    rw [hText]
    intro b hB
    rcases List.mem_map.mp hB with ⟨c, hC, rfl⟩
    exact not_isZone_of_isTimeChar (isTimeChar_timeText hC)
  have hEnd : pos + (s.length - pos) = s.length := by omega
  have hZone : findZone s s.length pos = s.length :=
    findZone_end (s.length - pos) (by omega) hEnd.symm hNone
  rw [parseIsoformatTime, hEnd, hZone,
    parseHhMmSsFf_timeText hHour hMinute hSecond hMicros hText
      hLength]
  change (if _ then _ else _) = _
  rw [if_pos rfl]
  rfl

--------------------
-- Texts of Datetimes
--------------------

variable {Date DateTime : Type}

def isoText
    (year month day hour minute second micros : Nat) : List Char :=
  zeroPadded 4 year ++ '-' :: (zeroPadded 2 month ++
    '-' :: (zeroPadded 2 day ++ 'T' ::
      timeText hour minute second (fractionText micros)))

theorem isoNaive_eq
    {chrono : Chrono Date DateTime}
    (hChrono : chrono.Documented)
    {ts : DateTime}
    (hFirst : 0 ≤ chrono.year (chrono.date ts))
    (hLast : chrono.year (chrono.date ts) ≤ 9999)
    (hLeap : chrono.nanosecond ts < 1000000000) :
    isoNaive chrono ts =
      isoText (chrono.year (chrono.date ts)).toNat
        (chrono.month (chrono.date ts))
        (chrono.day (chrono.date ts)) (chrono.hour ts)
        (chrono.minute ts) (chrono.second ts)
        (chrono.nanosecond ts / 1000) := by
  have hFormat := hChrono.format ts hFirst hLast hLeap
  rw [isoNaive, isoText, timeText, fractionText, hFormat]
  split
  · simp only [List.append_assoc, List.cons_append,
      List.append_nil]
  · simp only [List.append_assoc, List.cons_append]

/- Every character is a single byte. -/
theorem bytesOf_ascii
    {text : List Char}
    (hText : ∀ c ∈ text, c.toNat < 128) :
    bytesOf text = text.map byte := by
  induction text with
  | nil => rfl
  | cons c rest ih =>
      have hC := hText c List.mem_cons_self
      have hSize : c.utf8Size = 1 :=
        Char.utf8Size_eq_one_iff.mpr
          (UInt32.le_iff_toNat_le.mpr (Nat.le_of_lt_succ hC))
      have hRest := ih (fun d hD =>
        hText d (List.mem_cons_of_mem c hD))
      rw [bytesOf] at hRest ⊢
      rw [List.flatMap_cons, hRest,
        String.utf8EncodeChar_eq_singleton hSize, List.map_cons]
      rfl

theorem isoText_ascii
    {year month day hour minute second micros : Nat}
    {c : Char}
    (hC :
      c ∈ isoText year month day hour minute second micros) :
    c.toNat < 128 := by
  have hDigit : c.isDigit = true → c.toNat < 128 := by
    intro h
    have hRange := Numeral.toNat_of_isDigit h
    omega
  have hPadded :
      ∀ {width number : Nat},
        c ∈ zeroPadded width number → c.toNat < 128 :=
    fun h => hDigit (isDigit_of_mem_zeroPadded h)
  have hDash : c = '-' → c.toNat < 128 := by
    rintro rfl
    decide
  unfold isoText at hC
  rcases List.mem_append.mp hC with h | h
  · exact hPadded h
  rcases List.mem_cons.mp h with h | h
  · exact hDash h
  rcases List.mem_append.mp h with h | h
  · exact hPadded h
  rcases List.mem_cons.mp h with h | h
  · exact hDash h
  rcases List.mem_append.mp h with h | h
  · exact hPadded h
  rcases List.mem_cons.mp h with rfl | h
  · decide
  rcases isTimeChar_timeText h with h | rfl | rfl
  · exact hDigit h
  · decide
  · decide

/- The date of a text and its separator. -/
theorem parseIsoformatDate_isoText
    (chrono : Chrono Date DateTime)
    {s : List UInt8}
    {year month day hour minute second micros : Nat}
    (hYear : year < 10000)
    (hMonth : month < 100)
    (hDay : day < 100)
    (hText :
      Stands s 0
        (isoText year month day hour minute second micros))
    (hLength : s.length ≠ 7) :
    findSeparator s s.length = 10 ∧
      parseIsoformatDate chrono s 10 =
        .ok ((year : Int), (month : Int), (day : Int)) ∧
      byteAt s 10 = byte 'T' ∧
      Stands s 11
        (timeText hour minute second (fractionText micros)) := by
  rcases digitsOr_zeroPadded (-1) (by omega) (by omega) hYear hText
    with ⟨hYears, hRest⟩
  rcases hRest.cons with ⟨hDash, hRest⟩
  have hWeek : byteAt s 5 ≠ byte 'W' := by
    have hLengthMonth : (zeroPadded 2 month).length = 2 :=
      length_zeroPadded (by omega) hMonth
    have hDigits :
        ∀ c ∈ zeroPadded 2 month, c.isDigit = true :=
      fun c hC => isDigit_of_mem_zeroPadded hC
    have hHere := hRest
    cases hPadded : zeroPadded 2 month with
    | nil =>
        rw [hPadded] at hLengthMonth
        cases hLengthMonth
    | cons c rest =>
        rw [hPadded] at hHere hDigits
        rw [hHere.cons.1]
        have hSmall : 'W'.toNat < 128 := by decide
        have hOther : ¬ (48 ≤ 'W'.toNat ∧ 'W'.toNat ≤ 57) := by
          decide
        exact byte_ne_of_isDigit (hDigits c List.mem_cons_self)
          hSmall hOther
  rcases digitsOr_zeroPadded (-1) (by omega) (by omega) hMonth hRest
    with ⟨hMonths, hRest⟩
  rcases hRest.cons with ⟨hDash', hRest⟩
  rcases digitsOr_zeroPadded (-1) (by omega) (by omega) hDay hRest
    with ⟨hDays, hRest⟩
  rcases hRest.cons with ⟨hT, hTime⟩
  refine ⟨?_, ?_, hT, hTime⟩
  · rw [findSeparator, if_neg hLength, if_pos hDash, if_neg hWeek]
  · rw [parseIsoformatDate, hYears]
    change (if _ then _ else _) = _
    have hSeparator : decide (byteAt s (0 + 4) = byte '-') = true :=
      decide_eq_true hDash
    simp only [hSeparator, if_true]
    rw [if_neg hWeek, parseMonthDate, hMonths]
    change (if _ then _ else _) = _
    rw [if_neg (not_not.mpr hDash'), hDays]
    rfl

theorem length_isoText
    {year month day hour minute second : Nat}
    (micros : Nat)
    (hYear : year < 10000)
    (hMonth : month < 100)
    (hDay : day < 100)
    (hHour : hour < 100)
    (hMinute : minute < 100)
    (hSecond : second < 100) :
    (isoText year month day hour minute second micros).length =
      19 + (fractionText micros).length := by
  have hTwo : ∀ {n : Nat}, n < 100 → (zeroPadded 2 n).length = 2 :=
    fun hN => length_zeroPadded (by omega) hN
  have hFour : (zeroPadded 4 year).length = 4 :=
    length_zeroPadded (by omega) hYear
  simp only [isoText, timeText, List.length_append,
    List.length_cons, hTwo hMonth, hTwo hDay, hTwo hHour,
    hTwo hMinute, hTwo hSecond, hFour]
  omega

--------------------
-- The Round Trip
--------------------

/- The same datetime, without what is below a microsecond. -/
structure Truncates
    (chrono : Chrono Date DateTime)
    (result ts : DateTime) : Prop where
  date : chrono.date result = chrono.date ts
  hour : chrono.hour result = chrono.hour ts
  minute : chrono.minute result = chrono.minute ts
  second : chrono.second result = chrono.second ts
  nanosecond :
    chrono.nanosecond result = chrono.nanosecond ts / 1000 * 1000

theorem fromYmdOpt_fields
    {chrono : Chrono Date DateTime}
    (hChrono : chrono.Documented)
    {date : Date}
    (hFirst : 1 ≤ chrono.year date)
    (hLast : chrono.year date ≤ 9999) :
    chrono.fromYmdOpt (chrono.year date) (chrono.month date)
      (chrono.day date) = some date := by
  have hMin : Chrono.minYear = -262143 := rfl
  have hMax : Chrono.maxYear = 262142 := rfl
  rcases hChrono.fromYmdOpt_isSome _ _ _ (by omega) (by omega)
    (hChrono.isDate date) with ⟨other, hOther⟩
  rcases hChrono.fromYmdOpt_some _ _ _ _ hOther with
    ⟨hYear, hMonth, hDay⟩
  rw [hOther, hChrono.date_ext other date hYear hMonth hDay]

theorem naiveOf_fields
    {chrono : Chrono Date DateTime}
    (hChrono : chrono.Documented)
    {ts : DateTime}
    (hFirst : 1 ≤ chrono.year (chrono.date ts))
    (hLast : chrono.year (chrono.date ts) ≤ 9999)
    (hLeap : chrono.nanosecond ts < 1000000000) :
    ∃ naive,
      naiveOf chrono (chrono.year (chrono.date ts)).toNat
          (chrono.month (chrono.date ts))
          (chrono.day (chrono.date ts))
          { hour := chrono.hour ts
            minute := chrono.minute ts
            second := chrono.second ts
            microsecond := (chrono.nanosecond ts / 1000 : Nat) } =
        .ok naive ∧
      Truncates chrono naive ts := by
  have hHour := hChrono.hour_lt ts
  have hMinute := hChrono.minute_lt ts
  have hSecond := hChrono.second_lt ts
  have hYear :
      ((chrono.year (chrono.date ts)).toNat : Int) =
        chrono.year (chrono.date ts) :=
    Int.toNat_of_nonneg (by omega)
  have hNat : ∀ n : Nat, u32TryFrom (n : Int) = some n :=
    fun n => if_pos (Int.natCast_nonneg n)
  have hDate :
      dateOf chrono (chrono.year (chrono.date ts))
          (chrono.month (chrono.date ts))
          (chrono.day (chrono.date ts)) =
        some (chrono.date ts) := by
    rw [dateOf, hNat, hNat]
    change (if _ then _ else _) = _
    rw [if_pos ⟨hFirst, hLast⟩]
    exact fromYmdOpt_fields hChrono hFirst hLast
  have hRange : ∀ {n : Nat} {max : Int}, n ≤ max → inRange n max :=
    fun {n} _ hMax => ⟨Int.natCast_nonneg n, hMax⟩
  rcases hChrono.andHmsMicroOpt (chrono.date ts) (chrono.hour ts)
    (chrono.minute ts) (chrono.second ts)
    (chrono.nanosecond ts / 1000) hHour hMinute hSecond
    (by omega) with
    ⟨naive, hNaive, hSameDate, hSameHour, hSameMinute, hSameSecond,
      hNanos⟩
  refine ⟨naive, ?_, hSameDate, hSameHour, hSameMinute,
    hSameSecond, by omega⟩
  rw [naiveOf, hYear, hDate]
  change (if _ then _ else _) = _
  rw [if_neg (not_not.mpr ⟨hRange (by omega), hRange (by omega),
    hRange (by omega), hRange (by omega)⟩)]
  simp only [Int.toNat_natCast]
  rw [hNaive]
  rfl

theorem timeBehind_isoText
    {s : List UInt8}
    {hour minute second micros : Nat}
    (hHour : hour < 100)
    (hMinute : minute < 100)
    (hSecond : second < 100)
    (hMicros : micros < 1000000)
    (hSeparator : byteAt s 10 = byte 'T')
    (hText :
      Stands s 11
        (timeText hour minute second (fractionText micros)))
    (hLength : s.length = 19 + (fractionText micros).length) :
    timeBehind s 10 =
      .ok (0,
        { hmsUs :=
            { hour, minute, second, microsecond := micros } }) := by
  have hInside : (s.length : Int) > 10 := by omega
  have hTime := parseIsoformatTime_timeText hHour hMinute hSecond
    hMicros hText hLength
  have hWidth : 10 + separatorWidth (byteAt s 10) = 11 := by
    rw [hSeparator]
    rfl
  rw [timeBehind, if_pos hInside]
  change mapErr _ (parseIsoformatTime s
    (10 + separatorWidth (byteAt s 10))
    (s.length - (10 + separatorWidth (byteAt s 10)))) = _
  rw [hWidth, hTime]
  rfl

/- The parts of a text are put together. -/
theorem fromisoformat_isoText
    (chrono : Chrono Date DateTime)
    {year month day hour minute second micros : Nat}
    (hYear : year < 10000)
    (hMonth : month < 100)
    (hDay : day < 100)
    (hHour : hour < 100)
    (hMinute : minute < 100)
    (hSecond : second < 100)
    (hMicros : micros < 1000000)
    {text : List Char}
    (hText :
      text = isoText year month day hour minute second micros) :
    fromisoformat chrono text =
      (naiveOf chrono year month day
          { hour, minute, second, microsecond := micros } >>=
        fun naive => .ok { naive, offsetUs := none }) := by
  have hLength :=
    length_isoText micros hYear hMonth hDay hHour hMinute hSecond
  rw [← hText] at hLength
  have hAscii : ∀ c ∈ text, c.toNat < 128 := by
    rw [hText]
    intro c hC
    exact isoText_ascii hC
  have hSeven : ¬ text.length < 7 := by omega
  have hStands : Stands (text.map byte) 0 text := List.drop_zero
  have hSize :
      (text.map byte).length =
        19 + (fractionText micros).length := by
    rw [List.length_map]
    exact hLength
  rw [fromisoformat, if_neg hSeven, bytesOf_ascii hAscii]
  generalize text.map byte = s at hStands hSize ⊢
  rw [hText] at hStands
  rcases parseIsoformatDate_isoText chrono hYear hMonth hDay
    hStands (by omega) with ⟨hSeparator, hDate, hT, hTime⟩
  dsimp only
  rw [hSeparator, hDate]
  change (timeBehind s 10 >>= _) = _
  rw [timeBehind_isoText hHour hMinute hSecond hMicros hT hTime
    hSize]
  rfl

theorem fromisoformat_isoNaive
    {chrono : Chrono Date DateTime}
    (hChrono : chrono.Documented)
    {ts : DateTime}
    (hFirst : 1 ≤ chrono.year (chrono.date ts))
    (hLast : chrono.year (chrono.date ts) ≤ 9999)
    (hLeap : chrono.nanosecond ts < 1000000000) :
    ∃ naive,
      fromisoformat chrono (isoNaive chrono ts) =
          .ok { naive, offsetUs := none } ∧
        Truncates chrono naive ts := by
  have hHour := hChrono.hour_lt ts
  have hMinute := hChrono.minute_lt ts
  have hSecond := hChrono.second_lt ts
  rcases hChrono.isDate (chrono.date ts) with
    ⟨_, hMonth, _, hDay⟩
  have hDays := Gregorian.monthLength_le
    (chrono.year (chrono.date ts)) (chrono.month (chrono.date ts))
  rcases naiveOf_fields hChrono hFirst hLast hLeap with
    ⟨naive, hNaive, hTruncates⟩
  refine ⟨naive, ?_, hTruncates⟩
  have hMicros : chrono.nanosecond ts / 1000 < 1000000 := by omega
  rw [isoNaive_eq hChrono (by omega) hLast hLeap]
  generalize chrono.nanosecond ts / 1000 = micros at hNaive hMicros ⊢
  rw [fromisoformat_isoText chrono (by omega) (by omega)
    (by omega) (by omega) (by omega) (by omega) hMicros rfl,
    hNaive]
  rfl

/-
  Every text is answered without a panic, by a valid datetime
  or an error, and what is formatted is read back.
-/
theorem fromisoformat_exact
    {chrono : Chrono Date DateTime}
    (hChrono : chrono.Documented) :
    (∀ input,
      (∃ parsed,
        fromisoformat chrono input = .ok parsed ∧
          ValidDatetime chrono parsed) ∨
        ∃ e, fromisoformat chrono input = .error (.error e)) ∧
      ∀ ts,
        1 ≤ chrono.year (chrono.date ts) →
          chrono.year (chrono.date ts) ≤ 9999 →
            chrono.nanosecond ts < 1000000000 →
              ∃ naive,
                fromisoformat chrono (isoNaive chrono ts) =
                    .ok { naive, offsetUs := none } ∧
                  Truncates chrono naive ts := by
  constructor
  · intro input
    exact (safe_fromisoformat hChrono input).cases
  · intro ts hFirst hLast hLeap
    exact fromisoformat_isoNaive hChrono hFirst hLast hLeap

def leapDay : Chrono.Moment :=
  { date :=
      { year := 2024
        month := 2
        day := 29
        isDate := by decide }
    hour := 23
    minute := 59
    second := 7
    nanosecond := 120004999
    hour_lt := by decide
    minute_lt := by decide
    second_lt := by decide }

theorem fromisoformat_exact_leapDay :
    ∃ naive,
      fromisoformat Chrono.gregorian
          (isoNaive Chrono.gregorian leapDay) =
          .ok { naive, offsetUs := none } ∧
        Truncates Chrono.gregorian naive leapDay :=
  (fromisoformat_exact Chrono.gregorian_documented).2 leapDay
    (by decide) (by decide) (by decide)

end PyDatetime

end SentinelCommand
