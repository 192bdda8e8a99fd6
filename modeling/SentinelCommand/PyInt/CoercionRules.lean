import SentinelCommand.PyInt.Coercion

/-
  Which texts the cleaning of `str_as_int` turns into strict
  integers.

  Every pass is inverted on its own; what the passes let
  through together is `Coercion.Accepts`.

  Correctness is proven by:
    * `Coercion.jiterInt_eq_ok_iff`
    * `Coercion.body_of_strict`, `Coercion.strict_of_body`
    * `Coercion.cleaned_iff`
-/

--------------------
-- Strict Integers
--------------------

namespace SentinelCommand

namespace Coercion

open Machine CooldownArithmetic PyInt Numeral

/- A strict integer, and its value. -/
def StrictInt (text : List Char) (n : Int) : Prop :=
  ∃ negative digits,
    text = minus negative ++ digits ∧
      IsNumeral digits ∧ digits ≠ [] ∧ Strict digits ∧
      n = signed negative (value digits)

theorem isNonzero_iff (c : Char) :
    isNonzero c = true ↔ c.isDigit = true ∧ c ≠ '0' := by
  simp [isNonzero]

theorem length_takeWhile_isDigit_iff (digits : List Char) :
    (digits.takeWhile Char.isDigit).length = digits.length ↔
      IsNumeral digits := by
  constructor
  · intro hLen c hC
    have hSame :=
      (List.takeWhile_prefix Char.isDigit).eq_of_length hLen
    rw [← hSame] at hC
    exact List.all_eq_true.mp List.all_takeWhile c hC
  · intro hNumeral
    induction digits with
    | nil => rfl
    | cons c rest ih =>
        rw [List.takeWhile_cons_of_pos
          (hNumeral c List.mem_cons_self)]
        exact congrArg Nat.succ (ih (fun d hD =>
          hNumeral d (List.mem_cons_of_mem c hD)))

/- A numeral after its sign, parsed as 64 bits. -/
theorem parseI64_minus
    {digits : List Char}
    (negative : Bool)
    (hNumeral : IsNumeral digits)
    (hNe : digits ≠ []) :
    parseI64 (minus negative ++ digits) =
      if InI64 (signed negative (value digits)) then
        some (signed negative (value digits))
      else
        none := by
  have hDigits :
      Machine.digits digits = some (value digits : Int) := by
    unfold Machine.digits
    rw [if_pos ⟨hNe, List.all_eq_true.mpr hNumeral⟩]
  have hParse :
      parseInt (minus negative ++ digits) =
        some (signed negative (value digits)) := by
    cases negative with
    | false =>
        obtain ⟨c, rest, rfl⟩ := List.exists_cons_of_ne_nil hNe
        have hDigit := hNumeral c List.mem_cons_self
        change parseInt (c :: rest) = _
        unfold parseInt
        split
        · rename_i h
          cases h
          cases hDigit
        · rename_i h
          cases h
          cases hDigit
        · exact hDigits
    | true =>
        change (Machine.digits digits).map (- ·) = _
        rw [hDigits]
        rfl
  unfold parseI64
  rw [hParse, Option.filter_some]
  simp only [decide_eq_true_eq]

/- What `i64` cannot hold has the sign of its text. -/
theorem negative_of_out
    {negative : Bool}
    {m : Nat}
    (hOut : ¬InI64 (signed negative m)) :
    negative = decide (signed negative m < 0) := by
  unfold InI64 i64Min i64Max signed at *
  cases negative with
  | false =>
      simp only [Bool.false_eq_true, if_false] at *
      rw [decide_eq_false (by omega)]
  | true =>
      simp only [if_true] at *
      rw [decide_eq_true (by omega)]

/- Strict digits start with a digit that may lead them. -/
theorem strict_cons_iff
    {c : Char}
    {rest : List Char} :
    Strict (c :: rest) ↔ (c = '0' → rest = []) := by
  unfold Strict Trimmed
  by_cases hZero : c = '0'
  · simp [hZero]
  · simp [hZero]

theorem jiterDigits_eq_ok_iff
    (negative : Bool)
    (digits : List Char)
    (v : PyInt)
    (hSize :
      jiterDigits negative (minus negative).length
          (minus negative ++ digits) digits ≠
        .error .outOfRange) :
    jiterDigits negative (minus negative).length
        (minus negative ++ digits) digits = .ok v ↔
      (IsNumeral digits ∧ digits ≠ [] ∧ Strict digits) ∧
        v = ofInteger (signed negative (value digits)) := by
  cases digits with
  | nil => simp [jiterDigits]
  | cons c rest =>
      unfold jiterDigits at hSize ⊢
      dsimp only at hSize ⊢
      by_cases hZero : c = '0'
      · subst hZero
        rw [if_pos rfl]
        by_cases hRest : rest = []
        · subst hRest
          rw [if_pos rfl]
          have hValue :
              ofInteger (signed negative (value ['0'])) =
                .small 0 := by
            cases negative <;> decide
          rw [hValue]
          constructor
          · intro h
            cases h
            exact ⟨⟨isNumeral_of_all rfl, by simp, Or.inl rfl⟩,
              rfl⟩
          · rintro ⟨-, rfl⟩
            rfl
        · rw [if_neg hRest]
          constructor
          · intro h
            cases h
          · rintro ⟨⟨-, -, hStrict⟩, -⟩
            exact absurd
              (strict_cons_iff.mp hStrict rfl) hRest
      · rw [if_neg hZero]
        by_cases hNonzero : isNonzero c = true
        · have hDigit := ((isNonzero_iff c).mp hNonzero).1
          have hStrict : Strict (c :: rest) :=
            strict_cons_iff.mpr (fun h => absurd h hZero)
          rw [if_pos hNonzero, if_neg]
          · by_cases hAll : IsNumeral (c :: rest)
            · rw [if_neg (not_not.mpr
                ((length_takeWhile_isDigit_iff _).mpr hAll)),
                parseI64_minus negative hAll (by simp)]
              by_cases hIn :
                  InI64 (signed negative (value (c :: rest)))
              · rw [if_pos hIn, ofInteger_of_in hIn]
                constructor
                · intro h
                  cases h
                  exact ⟨⟨hAll, by simp, hStrict⟩, rfl⟩
                · rintro ⟨-, rfl⟩
                  rfl
              · rw [if_neg hIn, ofInteger_of_out hIn,
                  ← negative_of_out hIn]
                constructor
                · intro h
                  cases h
                  exact ⟨⟨hAll, by simp, hStrict⟩, rfl⟩
                · rintro ⟨-, rfl⟩
                  rfl
            · rw [if_pos (fun h => hAll
                ((length_takeWhile_isDigit_iff _).mp h))]
              constructor
              · intro h
                cases h
              · exact fun h => absurd h.1.1 hAll
          · intro hRange
            rw [if_neg hZero, if_pos hNonzero, if_pos hRange]
              at hSize
            exact hSize rfl
        · rw [if_neg hNonzero]
          constructor
          · intro h
            cases h
          · rintro ⟨⟨hNumeral, -, -⟩, -⟩
            exact absurd ((isNonzero_iff c).mpr
              ⟨hNumeral c List.mem_cons_self, hZero⟩) hNonzero

theorem jiterInt_of_no_minus
    {text : List Char}
    (hOther : ∀ rest, text ≠ '-' :: rest) :
    jiterInt text = jiterDigits false 0 text text := by
  unfold jiterInt
  split
  · exact absurd rfl (hOther _)
  · rfl

/- A text is read exactly when it is strict. -/
theorem jiterInt_eq_ok_iff
    (text : List Char)
    (v : PyInt)
    (hSize : jiterInt text ≠ .error .outOfRange) :
    jiterInt text = .ok v ↔
      ∃ n, StrictInt text n ∧ v = ofInteger n := by
  have hMinus :
      ∀ rest digits, IsNumeral digits → digits ≠ [] →
        digits ≠ '-' :: rest := by
    rintro rest digits hNumeral hNe rfl
    have hDigit := hNumeral '-' List.mem_cons_self
    cases hDigit
  by_cases hSign : ∃ rest, text = '-' :: rest
  · obtain ⟨rest, rfl⟩ := hSign
    have hIff := jiterDigits_eq_ok_iff true rest v hSize
    refine hIff.trans ⟨?_, ?_⟩
    · rintro ⟨⟨hNumeral, hNe, hStrict⟩, hV⟩
      exact ⟨_, ⟨true, rest, rfl, hNumeral, hNe, hStrict, rfl⟩,
        hV⟩
    · rintro ⟨n, ⟨negative, digits, hText, hNumeral, hNe, hStrict,
        rfl⟩, hV⟩
      cases negative with
      | false => exact absurd hText.symm (hMinus _ _ hNumeral hNe)
      | true =>
          cases hText
          exact ⟨⟨hNumeral, hNe, hStrict⟩, hV⟩
  · have hOther : ∀ rest, text ≠ '-' :: rest :=
      fun rest h => hSign ⟨rest, h⟩
    rw [jiterInt_of_no_minus hOther] at hSize ⊢
    have hIff := jiterDigits_eq_ok_iff false text v hSize
    refine hIff.trans ⟨?_, ?_⟩
    · rintro ⟨⟨hNumeral, hNe, hStrict⟩, hV⟩
      exact ⟨_, ⟨false, text, rfl, hNumeral, hNe, hStrict, rfl⟩,
        hV⟩
    · rintro ⟨n, ⟨negative, digits, hText, hNumeral, hNe, hStrict,
        rfl⟩, hV⟩
      cases negative with
      | false =>
          change text = digits at hText
          rw [hText]
          exact ⟨⟨hNumeral, hNe, hStrict⟩, hV⟩
      | true => exact absurd hText (hOther digits)

theorem strictInt_unique
    {text : List Char}
    {n m : Int}
    (hN : StrictInt text n)
    (hM : StrictInt text m) :
    n = m := by
  obtain ⟨negative, digits, hText, hNumeral, hNe, -, rfl⟩ := hN
  obtain ⟨negative', digits', hText', hNumeral', hNe', -, rfl⟩ :=
    hM
  have hSame := hText.symm.trans hText'
  have hFirst :
      ∀ rest xs : List Char, IsNumeral xs → xs ≠ '-' :: rest := by
    rintro rest xs hXs rfl
    have hDigit := hXs '-' List.mem_cons_self
    cases hDigit
  cases negative <;> cases negative'
  · change digits = digits' at hSame
    rw [hSame]
  · exact absurd hSame (hFirst _ _ hNumeral)
  · exact absurd hSame.symm (hFirst _ _ hNumeral')
  · cases hSame
    rfl

--------------------
-- Underscores and Fractions
--------------------

open Text Numeral

/- The text without its underscores where they may go. -/
def ungrouped (s : List Char) : List Char :=
  (stripUnderscores s).getD s

/- The first character stays, and digits were grouped. -/
theorem ungrouped_cons
    {c : Char}
    (rest : List Char)
    (hC : c ≠ '_') :
    ∃ more, ungrouped (c :: rest) = c :: more ∧
      (IsNumeral more → Continues rest more) := by
  unfold ungrouped stripUnderscores
  split
  · refine ⟨rest, rfl, ?_⟩
    intro hNumeral
    cases rest with
    | nil => exact Continues.done
    | cons d tail =>
        exact Continues.digits
          (grouped_of_isNumeral hNumeral (List.cons_ne_nil d tail))
  · rename_i hStrip
    simp only [not_or, not_not] at hStrip
    obtain ⟨-, hLast, -, hInfix⟩ := hStrip
    refine ⟨rest.filter (· ≠ '_'), by simp [hC], ?_⟩
    intro hNumeral
    exact (continues_iff hNumeral).mpr
      ⟨(getLast_cons_ne_iff rest hC).mp hLast,
        fun h => hInfix ((infix_cons_iff rest hC).mpr h)⟩

theorem ungrouped_of_continues
    {c : Char}
    {rest more : List Char}
    (hC : c ≠ '_')
    (hMore : Continues rest more) :
    ungrouped (c :: rest) = c :: more := by
  have hDigits := hMore.digits_eq
  have hNumeral := hMore.isNumeral
  rw [hDigits] at hNumeral hMore
  obtain ⟨hLast, hInfix⟩ := (continues_iff hNumeral).mp hMore
  unfold ungrouped stripUnderscores
  by_cases hAny : '_' ∈ c :: rest
  · rw [if_neg]
    · simp [hC, hDigits]
    · rintro (hHead | hEnd | hNone | hTwo)
      · exact hC (Option.some.inj hHead)
      · exact (getLast_cons_ne_iff rest hC).mpr hLast hEnd
      · exact hNone hAny
      · exact hInfix ((infix_cons_iff rest hC).mp hTwo)
  · rw [if_pos (Or.inr (Or.inr (Or.inl hAny)))]
    have hSame : rest.filter (· ≠ '_') = rest := by
      rw [List.filter_eq_self]
      intro d hD
      refine decide_eq_true ?_
      rintro rfl
      exact hAny (List.mem_cons_of_mem c hD)
    rw [hDigits, hSame]
    rfl

theorem cutFraction_append
    {whole fraction : List Char}
    (hWhole : '.' ∉ whole)
    (hFraction : Fraction fraction) :
    cutFraction (whole ++ fraction) = whole := by
  unfold cutFraction
  rcases hFraction with rfl | ⟨zeros, hNe, hZeros, rfl⟩
  · rw [List.append_nil,
      (splitOnce_eq_none_iff '.' whole).mpr hWhole]
  · rw [splitOnce_append zeros hWhole]
    dsimp only
    rw [if_pos]
    refine ⟨hNe, List.all_eq_true.mpr ?_⟩
    intro c hC
    exact decide_eq_true (hZeros c hC)

theorem exists_fraction (s : List Char) :
    ∃ fraction, Fraction fraction ∧
      s = cutFraction s ++ fraction := by
  unfold cutFraction
  split
  · rename_i whole decimal hSplit
    split
    · rename_i hZeros
      refine ⟨'.' :: decimal, Or.inr ⟨decimal, hZeros.1, ?_, rfl⟩,
        (splitOnce_eq_some hSplit).1⟩
      intro c hC
      exact of_decide_eq_true
        (List.all_eq_true.mp hZeros.2 c hC)
    · exact ⟨[], Or.inl rfl, (List.append_nil s).symm⟩
  · exact ⟨[], Or.inl rfl, (List.append_nil s).symm⟩

--------------------
-- Leading Zeros
--------------------

open Numeral

/- Zeros and underscores, in any order. -/
def Zeros (text : List Char) : Prop :=
  ∀ c ∈ text, c = '0' ∨ c = '_'

/- What is kept of the rest that follows the zeros. -/
inductive Remains (previous : Char) :
    List Char → List Char → Prop where
  | done : Remains previous [] [previous]
  | digit {c : Char} {rest : List Char} :
      isNonzero c = true →
        Remains previous (c :: rest) (c :: rest)
  | dash {rest : List Char} :
      Remains previous ('-' :: rest) ('-' :: rest)
  | point {rest : List Char} :
      Remains previous ('.' :: rest) (previous :: '.' :: rest)

theorem scanZeros_eq_some_iff
    (previous : Char)
    (text kept : List Char) :
    scanZeros previous text = some kept ↔
      ∃ zeros rest,
        text = zeros ++ rest ∧ Zeros zeros ∧
          Remains (zeros.getLastD previous) rest kept := by
  induction text generalizing previous with
  | nil =>
      constructor
      · intro h
        cases h
        exact ⟨[], [], rfl, by simp [Zeros], Remains.done⟩
      · rintro ⟨zeros, rest, hText, -, hRemains⟩
        obtain ⟨rfl, rfl⟩ :=
          List.append_eq_nil_iff.mp hText.symm
        cases hRemains
        rfl
  | cons c text ih =>
      unfold scanZeros
      by_cases hZero : c = '0' ∨ c = '_'
      · rw [if_pos hZero, ih c]
        constructor
        · rintro ⟨zeros, rest, rfl, hZeros, hRemains⟩
          rw [← List.getLastD_cons (a := previous)] at hRemains
          refine ⟨c :: zeros, rest, rfl, ?_, hRemains⟩
          intro d hD
          rcases List.mem_cons.mp hD with rfl | hTail
          · exact hZero
          · exact hZeros d hTail
        · rintro ⟨zeros, rest, hText, hZeros, hRemains⟩
          cases zeros with
          | nil =>
              change c :: text = rest at hText
              subst hText
              cases hRemains with
              | digit hNonzero =>
                  rcases hZero with rfl | rfl <;> cases hNonzero
              | dash => rcases hZero with h | h <;> cases h
              | point => rcases hZero with h | h <;> cases h
          | cons d zeros =>
              cases hText
              rw [List.getLastD_cons] at hRemains
              exact ⟨zeros, rest, rfl,
                fun e hE => hZeros e (List.mem_cons_of_mem _ hE),
                hRemains⟩
      · rw [if_neg hZero]
        have hSplit :
            (∃ zeros rest, c :: text = zeros ++ rest ∧
              Zeros zeros ∧
                Remains (zeros.getLastD previous) rest kept) ↔
              Remains previous (c :: text) kept := by
          constructor
          · rintro ⟨zeros, rest, hText, hZeros, hRemains⟩
            cases zeros with
            | nil =>
                change c :: text = rest at hText
                rw [hText]
                exact hRemains
            | cons d zeros =>
                cases hText
                exact absurd (hZeros _ List.mem_cons_self) hZero
          · intro hRemains
            exact ⟨[], c :: text, rfl, by simp [Zeros], hRemains⟩
        rw [hSplit]
        by_cases hLead : isNonzero c = true ∨ c = '-'
        · rw [if_pos hLead]
          constructor
          · intro h
            cases h
            rcases hLead with hDigit | rfl
            · exact Remains.digit hDigit
            · exact Remains.dash
          · intro hRemains
            cases hRemains with
            | digit _ => rfl
            | dash => rfl
            | point => rcases hLead with h | h <;> cases h
        · rw [if_neg hLead]
          constructor
          · intro h
            split at h
            · rename_i hPoint
              subst hPoint
              cases h
              exact Remains.point
            · cases h
          · intro hRemains
            cases hRemains with
            | digit h => exact absurd (Or.inl h) hLead
            | dash => exact absurd (Or.inr rfl) hLead
            | point => rfl

theorem stripLeadingZeros_eq_some_iff
    (text kept : List Char) :
    stripLeadingZeros text = some kept ↔
      (∃ c rest, text = c :: rest ∧ kept = text ∧
          (isNonzero c = true ∨ c = '-')) ∨
        ∃ zeros rest,
          text = '0' :: zeros ++ rest ∧ Zeros zeros ∧
            Remains (zeros.getLastD '0') rest kept := by
  cases text with
  | nil => simp [stripLeadingZeros]
  | cons c text =>
      unfold stripLeadingZeros
      dsimp only
      by_cases hZero : c = '0'
      · subst hZero
        rw [if_pos rfl, scanZeros_eq_some_iff]
        constructor
        · rintro ⟨zeros, rest, rfl, hZeros, hRemains⟩
          exact Or.inr ⟨zeros, rest, rfl, hZeros, hRemains⟩
        · rintro (⟨d, rest, hText, -, hLead⟩ |
            ⟨zeros, rest, hText, hZeros, hRemains⟩)
          · cases hText
            rcases hLead with h | h <;> cases h
          · cases hText
            exact ⟨zeros, rest, rfl, hZeros, hRemains⟩
      · rw [if_neg hZero]
        constructor
        · intro h
          split at h
          · rename_i hLead
            cases h
            exact Or.inl ⟨c, text, rfl, rfl, hLead⟩
          · cases h
        · rintro (⟨d, rest, hText, rfl, hLead⟩ |
            ⟨zeros, rest, hText, -, -⟩)
          · cases hText
            rw [if_pos hLead]
          · cases hText
            exact absurd rfl hZero

open PyInt

theorem sign_of_strip
    {text s body : List Char}
    {negative : Bool}
    (hPlus : stripPlus text = some s)
    (hMinus : stripMinus s = some (negative, body)) :
    ∃ sign, Sign sign negative ∧ text = sign ++ body ∧
      body.head? ≠ some '-' := by
  unfold stripPlus at hPlus
  split at hPlus
  · rename_i rest
    split at hPlus
    · cases hPlus
    · rename_i hHead
      cases hPlus
      unfold stripMinus at hMinus
      split at hMinus
      · exact absurd rfl hHead
      · cases hMinus
        exact ⟨['+'], Sign.plus, rfl, hHead⟩
  · cases hPlus
    unfold stripMinus at hMinus
    split at hMinus
    · rename_i rest
      split at hMinus
      · cases hMinus
      · rename_i hHead
        cases hMinus
        exact ⟨['-'], Sign.minus, rfl, fun h => hHead (Or.inl h)⟩
    · rename_i hOther
      cases hMinus
      refine ⟨[], Sign.none, rfl, ?_⟩
      intro hHead
      cases text with
      | nil => cases hHead
      | cons c rest =>
          cases hHead
          exact hOther rest rfl

theorem strip_of_sign
    {sign rest : List Char}
    {c : Char}
    {negative : Bool}
    (hSign : Sign sign negative)
    (hDigit : c.isDigit = true) :
    ∃ s, stripPlus (sign ++ c :: rest) = some s ∧
      stripMinus s = some (negative, c :: rest) := by
  have hDash : c ≠ '-' := by
    rintro rfl
    cases hDigit
  have hCross : c ≠ '+' := by
    rintro rfl
    cases hDigit
  cases hSign with
  | none =>
      refine ⟨c :: rest, ?_, ?_⟩
      · simp [stripPlus, hCross]
      · simp [stripMinus, hDash]
  | plus =>
      refine ⟨c :: rest, ?_, ?_⟩
      · simp [stripPlus, hDash]
      · simp [stripMinus, hDash]
  | minus =>
      refine ⟨'-' :: c :: rest, ?_, ?_⟩
      · simp [stripPlus]
      · simp [stripMinus, hDash, hCross]

--------------------
-- After the Sign
--------------------

open PyInt Numeral

/- A text from a first character that is kept as it is. -/
theorem cut_ungrouped
    {c : Char}
    (rest : List Char)
    (hPoint : c ≠ '.')
    (hC : c ≠ '_') :
    ∃ whole fraction more,
      rest = whole ++ fraction ∧ Fraction fraction ∧
        ungrouped (cutFraction (c :: rest)) = c :: more ∧
        (IsNumeral more → Continues whole more) := by
  obtain ⟨fraction, hFraction, hSplit⟩ :=
    exists_fraction (c :: rest)
  cases hCut : cutFraction (c :: rest) with
  | nil =>
      rw [hCut, List.nil_append] at hSplit
      rcases hFraction with rfl | ⟨zeros, -, -, rfl⟩
      · cases hSplit
      · cases hSplit
        exact absurd rfl hPoint
  | cons d whole =>
      rw [hCut] at hSplit
      cases hSplit
      obtain ⟨more, hMore, hContinues⟩ :=
        ungrouped_cons whole hC
      exact ⟨whole, fraction, more, rfl, hFraction, hMore,
        hContinues⟩

theorem cut_ungrouped_of_continues
    {c : Char}
    {whole more fraction : List Char}
    (hPoint : c ≠ '.')
    (hC : c ≠ '_')
    (hContinues : Continues whole more)
    (hFraction : Fraction fraction) :
    ungrouped (cutFraction (c :: whole ++ fraction)) =
      c :: more := by
  have hFree : '.' ∉ c :: whole := by
    intro hMem
    rcases List.mem_cons.mp hMem with h | hTail
    · exact hPoint h.symm
    · have hDigit :=
        hContinues.isNumeral '.' (by
          rw [hContinues.digits_eq]
          exact List.mem_filter.mpr ⟨hTail, rfl⟩)
      cases hDigit
  rw [cutFraction_append hFree hFraction]
  exact ungrouped_of_continues hC hContinues

/- A leading underscore is never taken away. -/
theorem ungrouped_cut_underscore (rest : List Char) :
    ∃ more,
      ungrouped (cutFraction ('_' :: rest)) = '_' :: more := by
  obtain ⟨fraction, hFraction, hSplit⟩ :=
    exists_fraction ('_' :: rest)
  cases hCut : cutFraction ('_' :: rest) with
  | nil =>
      rw [hCut, List.nil_append] at hSplit
      rcases hFraction with rfl | ⟨zeros, -, -, rfl⟩
      · cases hSplit
      · cases hSplit
  | cons d whole =>
      rw [hCut] at hSplit
      cases hSplit
      exact ⟨whole, by simp [ungrouped, stripUnderscores]⟩

/- The texts that are left of a body, with their sign. -/
inductive Body : List Char → Bool → Nat → Prop where
  | number {text fraction : List Char} {m : Nat} :
      Magnitude text m → Fraction fraction →
        Body (text ++ fraction) false m
  | dashed {zeros body digits fraction : List Char} :
      ZeroRun zeros → Continues body digits → digits ≠ [] →
        Strict digits → Fraction fraction →
        Body (zeros ++ '-' :: body ++ fraction) true
          (value digits)

theorem minus_append_eq_cons
    {negative : Bool}
    {c : Char}
    {digits more : List Char}
    (hSame : minus negative ++ digits = c :: more) :
    (negative = false ∧ digits = c :: more) ∨
      negative = true ∧ c = '-' ∧ digits = more := by
  cases negative with
  | false => exact Or.inl ⟨rfl, hSame⟩
  | true =>
      cases hSame
      exact Or.inr ⟨rfl, rfl, rfl⟩

/- A leading digit is followed by groups of digits. -/
theorem grouped_of_cut
    {c : Char}
    {rest digits : List Char}
    {negative : Bool}
    (hLead : isNonzero c = true)
    (hText :
      ungrouped (cutFraction (c :: rest)) =
        minus negative ++ digits)
    (hNumeral : IsNumeral digits) :
    negative = false ∧
      ∃ whole fraction,
        rest = whole ++ fraction ∧ Fraction fraction ∧
          Grouped (c :: whole) digits ∧ Trimmed digits := by
  obtain ⟨hDigit, hZero⟩ := (isNonzero_iff c).mp hLead
  have hNot : ∀ d : Char, d.isDigit = false → c ≠ d := by
    rintro d hD rfl
    rw [hDigit] at hD
    cases hD
  obtain ⟨whole, fraction, more, rfl, hFraction, hMore,
    hContinues⟩ :=
    cut_ungrouped rest (hNot '.' rfl) (hNot '_' rfl)
  rcases minus_append_eq_cons (hText.symm.trans hMore) with
    ⟨rfl, rfl⟩ | ⟨-, rfl, -⟩
  · have hRest := hContinues (fun d hD =>
      hNumeral d (List.mem_cons_of_mem c hD))
    refine ⟨rfl, whole, fraction, rfl, hFraction,
      (continues_cons_iff hDigit).mpr ⟨more, hRest, rfl⟩, ?_⟩
    intro hHead
    exact hZero (Option.some.inj hHead)
  · exact absurd rfl (hNot '-' rfl)

theorem getLastD_zeros
    {zeros : List Char}
    (hZeros : Zeros zeros) :
    zeros.getLastD '0' = '0' ∨ zeros.getLastD '0' = '_' := by
  cases hLast : zeros.getLast? with
  | none =>
      left
      rw [List.getLastD_eq_getLast?, hLast]
      rfl
  | some c =>
      rw [List.getLastD_eq_getLast?, hLast]
      exact hZeros c (List.mem_of_getLast? hLast)

theorem getLast?_zeros (zeros : List Char) :
    ('0' :: zeros).getLast? = some (zeros.getLastD '0') := by
  rw [List.getLast?_cons, List.getLastD_eq_getLast?]

/- Zeros only are left of a text when a zero is the last. -/
theorem zero_of_cut
    {last : Char}
    {tail digits : List Char}
    {negative : Bool}
    (hLast : last = '0' ∨ last = '_')
    (hTail : ∀ c ∈ tail.head?, c = '.')
    (hText :
      ungrouped (cutFraction (last :: tail)) =
        minus negative ++ digits)
    (hNumeral : IsNumeral digits)
    (hStrict : Strict digits) :
    last = '0' ∧ negative = false ∧ value digits = 0 ∧
      Fraction tail := by
  rcases hLast with rfl | rfl
  · obtain ⟨whole, fraction, more, rfl, hFraction, hMore,
      hContinues⟩ :=
      cut_ungrouped (c := '0') tail (by decide) (by decide)
    rcases minus_append_eq_cons (hText.symm.trans hMore) with
      ⟨rfl, rfl⟩ | ⟨-, hDash, -⟩
    · have hMoreNil := strict_cons_iff.mp hStrict rfl
      subst hMoreNil
      have hWhole := (hContinues (by simp [IsNumeral])).digits_eq
      cases whole with
      | nil => exact ⟨rfl, rfl, rfl, hFraction⟩
      | cons d rest =>
          have hPoint := hTail d rfl
          subst hPoint
          simp at hWhole
    · cases hDash
  · obtain ⟨more, hMore⟩ := ungrouped_cut_underscore tail
    rcases minus_append_eq_cons (hText.symm.trans hMore) with
      ⟨-, rfl⟩ | ⟨-, hDash, -⟩
    · have hDigit := hNumeral '_' List.mem_cons_self
      cases hDigit
    · cases hDash

theorem body_of_strict
    {text kept digits : List Char}
    {negative : Bool}
    (hHead : text.head? ≠ some '-')
    (hKept : stripLeadingZeros text = some kept)
    (hText :
      ungrouped (cutFraction kept) = minus negative ++ digits)
    (hNumeral : IsNumeral digits)
    (hNe : digits ≠ [])
    (hStrict : Strict digits) :
    Body text negative (value digits) := by
  rcases (stripLeadingZeros_eq_some_iff text kept).mp hKept with
    ⟨c, rest, rfl, rfl, hLead⟩ |
    ⟨zeros, rest, rfl, hZeros, hRemains⟩
  · -- The text starts with the digit that leads it.
    have hLead' : isNonzero c = true := by
      refine hLead.resolve_right ?_
      rintro rfl
      exact hHead rfl
    obtain ⟨rfl, whole, fraction, rfl, hFraction, hGrouped,
      hTrimmed⟩ := grouped_of_cut hLead' hText hNumeral
    exact Body.number (Magnitude.plain hGrouped hTrimmed)
      hFraction
  · have hRun : ZeroRun ('0' :: zeros) := ⟨zeros, rfl, hZeros⟩
    cases hRemains with
    | digit hLead =>
        obtain ⟨rfl, whole, fraction, rfl, hFraction, hGrouped,
          hTrimmed⟩ := grouped_of_cut hLead hText hNumeral
        have hBody :=
          Body.number (Magnitude.padded hRun hGrouped hTrimmed)
            hFraction
        rwa [List.append_assoc] at hBody
    | dash =>
        rename_i rest
        obtain ⟨whole, fraction, more, rfl, hFraction, hMore,
          hContinues⟩ :=
          cut_ungrouped (c := '-') rest (by decide) (by decide)
        rcases minus_append_eq_cons (hText.symm.trans hMore) with
          ⟨-, rfl⟩ | ⟨rfl, -, rfl⟩
        · have hDigit := hNumeral '-' List.mem_cons_self
          cases hDigit
        · have hBody :=
            Body.dashed hRun (hContinues hNumeral) hNe hStrict
              hFraction
          rwa [List.append_assoc, List.cons_append] at hBody
    | done =>
        obtain ⟨hLast, rfl, hValue, hFraction⟩ :=
          zero_of_cut (getLastD_zeros hZeros) (by simp) hText
            hNumeral hStrict
        rw [hValue]
        exact Body.number
          (Magnitude.zero hRun
            ((getLast?_zeros zeros).trans (congrArg some hLast)))
          hFraction
    | point =>
        obtain ⟨hLast, rfl, hValue, hFraction⟩ :=
          zero_of_cut (getLastD_zeros hZeros) (by simp) hText
            hNumeral hStrict
        rw [hValue]
        exact Body.number
          (Magnitude.zero hRun
            ((getLast?_zeros zeros).trans (congrArg some hLast)))
          hFraction

/- The first character of a grouped numeral without zeros. -/
theorem lead_of_grouped
    {body digits : List Char}
    (hGrouped : Grouped body digits)
    (hTrimmed : Trimmed digits) :
    ∃ c whole more,
      body = c :: whole ∧ digits = c :: more ∧
        isNonzero c = true ∧ Continues whole more := by
  obtain ⟨c, whole, rfl, hDigit⟩ := hGrouped.head
  obtain ⟨more, hMore, rfl⟩ :=
    (continues_cons_iff hDigit).mp hGrouped
  refine ⟨c, whole, more, rfl, rfl, ?_, hMore⟩
  refine (isNonzero_iff c).mpr ⟨hDigit, ?_⟩
  rintro rfl
  exact hTrimmed rfl

theorem cut_of_lead
    {c : Char}
    {whole more fraction : List Char}
    (hLead : isNonzero c = true)
    (hContinues : Continues whole more)
    (hFraction : Fraction fraction) :
    ungrouped (cutFraction (c :: whole ++ fraction)) =
      c :: more := by
  obtain ⟨hDigit, -⟩ := (isNonzero_iff c).mp hLead
  have hNot : ∀ d : Char, d.isDigit = false → c ≠ d := by
    rintro d hD rfl
    rw [hDigit] at hD
    cases hD
  exact cut_ungrouped_of_continues (hNot '.' rfl) (hNot '_' rfl)
    hContinues hFraction

theorem strict_of_body
    {text : List Char}
    {negative : Bool}
    {m : Nat}
    (hBody : Body text negative m) :
    ∃ kept digits,
      stripLeadingZeros text = some kept ∧
        ungrouped (cutFraction kept) =
          minus negative ++ digits ∧
        IsNumeral digits ∧ digits ≠ [] ∧ Strict digits ∧
        value digits = m := by
  cases hBody with
  | number hMagnitude hFraction =>
      rename_i fraction
      cases hMagnitude with
      | plain hGrouped hTrimmed =>
          rename_i digits
          obtain ⟨c, whole, more, rfl, rfl, hLead, hContinues⟩ :=
            lead_of_grouped hGrouped hTrimmed
          refine ⟨c :: whole ++ fraction, c :: more, ?_,
            cut_of_lead hLead hContinues hFraction,
            hGrouped.isNumeral.1, hGrouped.isNumeral.2,
            Or.inr hTrimmed, rfl⟩
          exact (stripLeadingZeros_eq_some_iff _ _).mpr
            (Or.inl ⟨c, whole ++ fraction, rfl, rfl, Or.inl hLead⟩)
      | padded hRun hGrouped hTrimmed =>
          rename_i zeros body digits
          obtain ⟨c, whole, more, rfl, rfl, hLead, hContinues⟩ :=
            lead_of_grouped hGrouped hTrimmed
          obtain ⟨rest, rfl, hZeros⟩ := hRun
          refine ⟨c :: whole ++ fraction, c :: more, ?_,
            cut_of_lead hLead hContinues hFraction,
            hGrouped.isNumeral.1, hGrouped.isNumeral.2,
            Or.inr hTrimmed, rfl⟩
          exact (stripLeadingZeros_eq_some_iff _ _).mpr
            (Or.inr ⟨rest, c :: whole ++ fraction, by simp, hZeros,
              Remains.digit hLead⟩)
      | zero hRun hLast =>
          obtain ⟨rest, rfl, hZeros⟩ := hRun
          rw [getLast?_zeros, Option.some_inj] at hLast
          have hCut :
              ungrouped (cutFraction ('0' :: [] ++ fraction)) =
                ['0'] :=
            cut_ungrouped_of_continues (by decide) (by decide)
              Continues.done hFraction
          refine ⟨'0' :: fraction, ['0'], ?_, hCut,
            by simp [IsNumeral], by simp, Or.inl rfl, rfl⟩
          refine (stripLeadingZeros_eq_some_iff _ _).mpr
            (Or.inr ⟨rest, fraction, rfl, hZeros, ?_⟩)
          rw [hLast]
          rcases hFraction with rfl | ⟨zeros, -, -, rfl⟩
          · exact Remains.done
          · exact Remains.point
  | dashed hRun hContinues hNe hStrict hFraction =>
      rename_i zeros body digits fraction
      obtain ⟨rest, rfl, hZeros⟩ := hRun
      have hCut :
          ungrouped (cutFraction ('-' :: body ++ fraction)) =
            '-' :: digits :=
        cut_ungrouped_of_continues (by decide) (by decide)
          hContinues hFraction
      refine ⟨'-' :: body ++ fraction, digits, ?_, hCut,
        hContinues.isNumeral, hNe, hStrict, rfl⟩
      exact (stripLeadingZeros_eq_some_iff _ _).mpr
        (Or.inr ⟨rest, '-' :: body ++ fraction, by simp, hZeros,
          Remains.dash⟩)

theorem head_of_body
    {text : List Char}
    {negative : Bool}
    {m : Nat}
    (hBody : Body text negative m) :
    ∃ c rest, text = c :: rest ∧ c.isDigit = true := by
  cases hBody with
  | number hMagnitude _ =>
      cases hMagnitude with
      | plain hGrouped _ =>
          obtain ⟨c, rest, rfl, hDigit⟩ := hGrouped.head
          exact ⟨c, _, rfl, hDigit⟩
      | padded hRun _ _ =>
          obtain ⟨rest, rfl, -⟩ := hRun
          exact ⟨'0', _, rfl, rfl⟩
      | zero hRun _ =>
          obtain ⟨rest, rfl, -⟩ := hRun
          exact ⟨'0', _, rfl, rfl⟩
  | dashed hRun _ _ _ _ =>
      obtain ⟨rest, rfl, -⟩ := hRun
      exact ⟨'0', _, rfl, rfl⟩

--------------------
-- Cleaning as a Whole
--------------------

open Text PyInt Numeral

/- `clean_int_str` of a trimmed text, which may be unchanged. -/
def cleaned (text : List Char) : Option (List Char) := do
  let s ← stripPlus text
  let (negative, s) ← stripMinus s
  let s ← stripLeadingZeros s
  some (minus negative ++ ungrouped (cutFraction s))

/- A sign of a text and the minus sign behind its zeros. -/
theorem accepts_iff
    (text : List Char)
    (n : Int) :
    Accepts text n ↔
      ∃ sign body negative inner m,
        text = sign ++ body ∧ Sign sign negative ∧
          Body body inner m ∧
          (inner = true → negative = false) ∧
          n = signed (negative || inner) m := by
  constructor
  · intro hAccepts
    cases hAccepts with
    | number hSign hMagnitude hFraction =>
        rename_i sign body fraction negative m
        exact ⟨sign, body ++ fraction, negative, false, m,
          List.append_assoc _ _ _, hSign,
          Body.number hMagnitude hFraction, by simp, by simp⟩
    | dashed hSign hRun hContinues hNe hStrict hFraction =>
        rename_i sign zeros body digits fraction
        exact ⟨sign, zeros ++ '-' :: body ++ fraction, false, true,
          _, by simp, hSign,
          Body.dashed hRun hContinues hNe hStrict hFraction,
          by simp, rfl⟩
  · rintro ⟨sign, body, negative, inner, m, rfl, hSign, hBody,
      hInner, rfl⟩
    cases hBody with
    | number hMagnitude hFraction =>
        rw [← List.append_assoc, Bool.or_false]
        exact Accepts.number hSign hMagnitude hFraction
    | dashed hRun hContinues hNe hStrict hFraction =>
        have hFalse := hInner rfl
        subst hFalse
        have hAccepts :=
          Accepts.dashed hSign hRun hContinues hNe hStrict
            hFraction
        simpa [signed] using hAccepts

theorem cleaned_iff
    (text : List Char)
    (n : Int) :
    (∃ c, cleaned text = some c ∧ StrictInt c n) ↔
      Accepts text n := by
  rw [accepts_iff]
  constructor
  · rintro ⟨c, hCleaned, negative', digits, hC, hNumeral, hNe,
      hStrict, rfl⟩
    unfold cleaned at hCleaned
    simp only [Option.bind_eq_bind, Option.bind_eq_some_iff]
      at hCleaned
    obtain ⟨s, hPlus, ⟨negative, body⟩, hMinus, kept, hKept,
      hSome⟩ := hCleaned
    obtain ⟨sign, hSign, rfl, hHead⟩ := sign_of_strip hPlus hMinus
    have hText := (Option.some.inj hSome).trans hC
    cases negative with
    | false =>
        exact ⟨sign, body, false, negative', value digits, rfl,
          hSign,
          body_of_strict hHead hKept hText hNumeral hNe hStrict,
          by simp, rfl⟩
    | true =>
        rcases minus_append_eq_cons hText.symm with
          ⟨-, rfl⟩ | ⟨rfl, -, rfl⟩
        · have hDigit := hNumeral '-' List.mem_cons_self
          cases hDigit
        · have hSame :
              ungrouped (cutFraction kept) =
                minus false ++ ungrouped (cutFraction kept) := rfl
          exact ⟨sign, body, true, false, _, rfl, hSign,
            body_of_strict hHead hKept hSame hNumeral hNe
              hStrict,
            by simp, rfl⟩
  · rintro ⟨sign, body, negative, inner, m, rfl, hSign, hBody,
      hInner, rfl⟩
    obtain ⟨kept, digits, hKept, hCut, hNumeral, hNe, hStrict,
      rfl⟩ := strict_of_body hBody
    obtain ⟨c, rest, rfl, hDigit⟩ := head_of_body hBody
    have hStrip :
        ∃ s, stripPlus (sign ++ c :: rest) = some s ∧
          stripMinus s = some (negative, c :: rest) :=
      strip_of_sign hSign hDigit
    obtain ⟨s, hPlus, hMinus⟩ := hStrip
    have hSome :
        cleaned (sign ++ c :: rest) =
          some (minus (negative || inner) ++ digits) := by
      unfold cleaned
      simp only [Option.bind_eq_bind, hPlus, hMinus, hKept, hCut,
        Option.bind_some]
      cases inner with
      | false =>
          rw [Bool.or_false]
          rfl
      | true =>
          rw [hInner rfl]
          rfl
    exact ⟨_, hSome, negative || inner, digits, rfl, hNumeral,
      hNe, hStrict, rfl⟩

/- A text has one value at most. -/
theorem accepts_unique
    {text : List Char}
    {n m : Int}
    (hN : Accepts text n)
    (hM : Accepts text m) :
    n = m := by
  obtain ⟨c, hC, hStrict⟩ := (cleaned_iff text n).mpr hN
  obtain ⟨c', hC', hStrict'⟩ := (cleaned_iff text m).mpr hM
  rw [hC, Option.some_inj] at hC'
  subst hC'
  exact strictInt_unique hStrict hStrict'

/- A strict integer is accepted as it is. -/
theorem accepts_of_strictInt
    {text : List Char}
    {n : Int}
    (hStrict : StrictInt text n) :
    trim text = text ∧ Accepts text n := by
  obtain ⟨negative, digits, rfl, hNumeral, hNe, hLead, rfl⟩ :=
    hStrict
  have hSign : Sign (minus negative) negative := by
    cases negative with
    | false => exact Sign.none
    | true => exact Sign.minus
  have hGrouped := grouped_of_isNumeral hNumeral hNe
  have hBlank : Blank [] := by simp [Blank]
  have hMagnitude : Magnitude digits (value digits) := by
    rcases hLead with rfl | hTrimmed
    · exact Magnitude.zero ⟨[], rfl, by simp⟩ rfl
    · exact Magnitude.plain hGrouped hTrimmed
  constructor
  · have hTrim := trim_of_spelling hBlank hBlank hSign hGrouped
    rwa [List.nil_append, List.append_nil] at hTrim
  · have hAccepts :=
      Accepts.number hSign hMagnitude (Or.inl rfl)
    rwa [List.append_nil] at hAccepts

end Coercion

end SentinelCommand
