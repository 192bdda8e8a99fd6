import Mathlib.Logic.Relation
import SentinelCommand.Json.PyScanner

/-
  The numbers of the scanner of `pyjson.rs`, part by part.

  A part is read in one way once it is known what can stand
  behind it; the letter of an exponent without digits is left
  unread.

  Key definitions include:
    * `PyJson.Part`

  Correctness is proven by:
    * `PyJson.part_number`
-/

--------------------
-- Parts
--------------------

namespace SentinelCommand

namespace PyJson

open JsonGrammar

/-
  What a part of a number, from an index on, is found to be
  before a rest that can stand behind it.
-/
inductive Part
    (s : List Char)
    (start : Nat)
    (rule : List Char → List Char → Prop)
    (next : List Char → Prop)
    (least idx : Nat) : Scan → Prop where
  | found {j : Nat} :
      idx + least ≤ j → j ≤ s.length →
        rule (s.drop idx) (s.drop j) →
          (∀ rest, rule (s.drop idx) rest → next rest →
            rest = s.drop j) →
            Part s start rule next least idx (.ok j)
  | absent :
      (∀ rest, rule (s.drop idx) rest → ¬ next rest) →
        Part s start rule next least idx
          (.error (.stop (.value start)))

theorem Part.bind
    {s : List Char}
    {start least more idx : Nat}
    {first second : List Char → List Char → Prop}
    {next after : List Char → Prop}
    {result : Scan}
    {scan : Nat → Scan}
    (hFirst : Part s start first next least idx result)
    (hSecond :
      ∀ j ≤ s.length, Part s start second after more j (scan j))
    (hNext :
      ∀ middle rest,
        second middle rest → after rest → next middle) :
    Part s start (Relation.Comp first second) after (least + more) idx
      (result >>= scan) := by
  cases hFirst with
  | absent hNone =>
      apply Part.absent
      rintro rest ⟨middle, hMiddle, hRest⟩ hAfter
      exact hNone middle hMiddle (hNext middle rest hRest hAfter)
  | @found j hLeast hLength hRule hOnly =>
      have hThen := hSecond j hLength
      change Part s start _ after (least + more) idx (scan j)
      generalize scan j = other at hThen
      cases hThen with
      | absent hNone =>
          apply Part.absent
          rintro rest ⟨middle, hMiddle, hRest⟩ hAfter
          have hSame := hOnly middle hMiddle
            (hNext middle rest hRest hAfter)
          rw [hSame] at hRest
          exact hNone rest hRest hAfter
      | @found k hMore hEnd hRest hLast =>
          refine Part.found (by omega) hEnd
            ⟨_, hRule, hRest⟩ ?_
          rintro rest ⟨middle, hMiddle, hOther⟩ hAfter
          have hSame := hOnly middle hMiddle
            (hNext middle rest hOther hAfter)
          rw [hSame] at hOther
          exact hLast rest hOther hAfter

/- A part that may be left out, and is. -/
theorem part_left_out
    {s : List Char}
    {start idx : Nat}
    {rule : List Char → List Char → Prop}
    {next : List Char → Prop}
    (hIdx : idx ≤ s.length)
    (hNone : rule (s.drop idx) (s.drop idx))
    (hOnly :
      ∀ rest, rule (s.drop idx) rest → next rest →
        rest = s.drop idx) :
    Part s start rule next 0 idx (.ok idx) :=
  .found (Nat.le_refl idx) hIdx hNone hOnly

theorem digit_of_at
    {s : List Char}
    {i : Nat}
    {c : Char}
    (hAt : s[i]? = some c) :
    digit s i = c.isDigit := by
  rw [digit, hAt]
  rfl

theorem at_of_digit
    {s : List Char}
    {i : Nat}
    (hDigit : digit s i = true) :
    ∃ c, s[i]? = some c ∧ c.isDigit = true := by
  rw [digit] at hDigit
  exact (Option.any_eq_true _ _).mp hDigit

theorem drop_eq_skipDigits
    {s rest : List Char}
    {i : Nat}
    (hDigits : Digits (s.drop i) rest)
    (hRest : AfterDigits rest) :
    rest = s.drop (skipDigits s i) := by
  rw [drop_skipDigits]
  exact (hDigits.eq_dropWhile hRest).symm

theorem le_skipDigits (s : List Char) (i : Nat) :
    i ≤ skipDigits s i :=
  Nat.le_add_right _ _

theorem skipDigits_of_digit
    {s : List Char}
    {i : Nat}
    {c : Char}
    (hAt : s[i]? = some c)
    (hC : c.isDigit = true) :
    skipDigits s i = skipDigits s (i + 1) := by
  rw [skipDigits, (drop_of_at hAt).1,
    List.takeWhile_cons_of_pos hC, List.length_cons, skipDigits]
  omega

theorem skipDigits_of_not
    {s : List Char}
    {i : Nat}
    (hNot : digit s i = false) :
    skipDigits s i = i := by
  rw [skipDigits]
  cases hAt : s[i]? with
  | none =>
      rw [List.drop_eq_nil_of_le (List.getElem?_eq_none_iff.mp hAt)]
      rfl
  | some c =>
      rw [digit_of_at hAt] at hNot
      rw [(drop_of_at hAt).1, List.takeWhile_cons_of_neg
        (by rw [hNot]; exact Bool.noConfusion)]
      rfl

/- The digits that were passed end with a digit. -/
theorem digit_last
    {s : List Char}
    (count : Nat)
    {i : Nat}
    (hCount : s.length ≤ i + count)
    (hDigit : digit s i = true) :
    digit s (skipDigits s i - 1) = true := by
  induction count generalizing i with
  | zero =>
      obtain ⟨c, hAt, _⟩ := at_of_digit hDigit
      have hI := (drop_of_at hAt).2
      omega
  | succ count ih =>
      obtain ⟨c, hAt, hC⟩ := at_of_digit hDigit
      rw [skipDigits_of_digit hAt hC]
      cases hNext : digit s (i + 1) with
      | true => exact ih (by omega) hNext
      | false =>
          rw [skipDigits_of_not hNext]
          exact hDigit

--------------------
-- Parts of a Number
--------------------

theorem part_afterMinus
    {s : List Char}
    {idx : Nat}
    (hIdx : idx ≤ s.length) :
    Part s idx Minus StartsDigit 0 idx (afterMinus s idx) := by
  rw [afterMinus]
  by_cases hDash : s[idx]? = some '-'
  · obtain ⟨hDrop, hBound⟩ := drop_of_at hDash
    rw [if_pos hDash]
    have hSplit :
        ∀ rest, Minus (s.drop idx) rest → StartsDigit rest →
          rest = s.drop (idx + 1) := by
      rintro rest hMinus ⟨c, tail, hRest, hC⟩
      rw [hDrop] at hMinus
      cases hMinus with
      | none =>
          cases hRest
          cases hC
      | dash => rfl
    by_cases hEnd : (idx + 1 : Nat) > endIdx s
    · rw [if_pos hEnd]
      apply Part.absent
      intro rest hMinus hNext
      have hNil : s.drop (idx + 1) = [] := by
        apply List.drop_eq_nil_of_le
        rw [endIdx] at hEnd
        omega
      have hSame := hSplit rest hMinus hNext
      obtain ⟨c, tail, hRest, _⟩ := hNext
      rw [hNil, hRest] at hSame
      cases hSame
    · rw [if_neg hEnd]
      refine Part.found (by omega) hBound ?_ hSplit
      rw [hDrop]
      exact .dash
  · rw [if_neg hDash]
    apply part_left_out hIdx .none
    intro rest hMinus _
    rcases (minus_iff _ _).mp hMinus with hSame | hText
    · exact hSame
    · exact absurd (at_of_drop hText).1 hDash

theorem part_afterWhole
    {s : List Char}
    (start idx : Nat) :
    Part s start Whole AfterDigits 1 idx
      (afterWhole s start idx) := by
  rw [afterWhole]
  cases hAt : s[idx]? with
  | none =>
      apply Part.absent
      intro rest hWhole _
      rw [List.drop_eq_nil_of_le
        (List.getElem?_eq_none_iff.mp hAt)] at hWhole
      cases hWhole
  | some c =>
      obtain ⟨hDrop, hBound⟩ := drop_of_at hAt
      have hPassed := le_skipDigits s (idx + 1)
      dsimp only
      by_cases hDigits : c.isDigit = true ∧ c ≠ '0'
      · rw [if_pos hDigits]
        refine Part.found hPassed (skipDigits_le hBound) ?_ ?_
        · rw [hDrop]
          exact .digits hDigits.1 hDigits.2
            (digits_skipDigits s (idx + 1))
        · intro rest hWhole hNext
          rw [hDrop] at hWhole
          cases hWhole with
          | zero => exact absurd rfl hDigits.2
          | digits _ _ hMore =>
              exact drop_eq_skipDigits hMore hNext
      · rw [if_neg hDigits]
        by_cases hZero : c = '0'
        · rw [if_pos hZero]
          refine Part.found (Nat.le_refl _) hBound ?_ ?_
          · rw [hDrop, hZero]
            exact .zero
          · intro rest hWhole _
            rw [hDrop] at hWhole
            cases hWhole with
            | zero => rfl
            | digits _ hOther _ => exact absurd hZero hOther
        · rw [if_neg hZero]
          apply Part.absent
          intro rest hWhole _
          rw [hDrop] at hWhole
          cases hWhole with
          | zero => exact hZero rfl
          | digits hC hOther _ => exact hDigits ⟨hC, hOther⟩

theorem part_afterFraction
    {s : List Char}
    {idx : Nat}
    (start : Nat)
    (hIdx : idx ≤ s.length) :
    Part s start Fraction AfterFraction 0 idx
      (afterFraction s idx) := by
  rw [afterFraction]
  by_cases hRoom : (idx : Int) < endIdx s
  · have hInside : idx < s.length := by
      rw [endIdx] at hRoom
      omega
    obtain ⟨c, hAt⟩ := exists_at hInside
    obtain ⟨hDrop, hBound⟩ := drop_of_at hAt
    rw [if_pos hRoom, index_of_at hAt]
    change Part s start _ _ 0 idx (if _ then _ else _)
    by_cases hPoint : c = '.' ∧ digit s (idx + 1) = true
    · rw [if_pos hPoint]
      obtain ⟨d, hAtD, hD⟩ := at_of_digit hPoint.2
      obtain ⟨hDropD, hBoundD⟩ := drop_of_at hAtD
      have hPassed := le_skipDigits s (idx + 2)
      refine Part.found (by omega) (skipDigits_le hBoundD) ?_ ?_
      · rw [hDrop, hDropD, hPoint.1]
        exact .digits hD (digits_skipDigits s (idx + 2))
      · intro rest hFraction hNext
        rw [hDrop, hDropD] at hFraction
        cases hFraction with
        | none => exact absurd hPoint.1 (hNext c rfl).2
        | digits _ hMore =>
            exact drop_eq_skipDigits hMore hNext.afterDigits
    · rw [if_neg hPoint]
      apply part_left_out hIdx .none
      intro rest hFraction _
      generalize hText : s.drop idx = text at hFraction
      cases hFraction with
      | none => rfl
      | digits hD _ =>
          obtain ⟨hPointAt, hTail, _⟩ := at_of_drop hText
          rw [hAt] at hPointAt
          have hDigit := digit_of_at (at_of_drop hTail).1
          rw [hD] at hDigit
          exact absurd ⟨Option.some.inj hPointAt, hDigit⟩ hPoint
  · rw [if_neg hRoom]
    apply part_left_out hIdx .none
    intro rest hFraction _
    generalize hText : s.drop idx = text at hFraction
    cases hFraction with
    | none => rfl
    | digits _ _ =>
        obtain ⟨_, hTail, _⟩ := at_of_drop hText
        have hBound := (at_of_drop hTail).2.2
        rw [endIdx] at hRoom
        omega

--------------------
-- Exponents
--------------------

/- A sign is passed where more can follow it. -/
theorem afterSign_cases
    {s : List Char}
    {idx : Nat}
    (hIdx : idx ≤ s.length) :
    (afterSign s idx = .ok idx ∧
        ∀ c d rest,
          s.drop idx = c :: d :: rest → ¬ (c = '-' ∨ c = '+')) ∨
      ∃ c,
        afterSign s idx = .ok (idx + 1) ∧
          s[idx]? = some c ∧ (c = '-' ∨ c = '+') := by
  rw [afterSign]
  by_cases hRoom : (idx : Int) < endIdx s
  · have hInside : idx < s.length := by
      rw [endIdx] at hRoom
      omega
    obtain ⟨c, hAt⟩ := exists_at hInside
    rw [if_pos hRoom, index_of_at hAt]
    by_cases hSign : c = '-' ∨ c = '+'
    · right
      exact ⟨c, if_pos hSign, hAt, hSign⟩
    · left
      refine ⟨if_neg hSign, ?_⟩
      intro d _ _ hDrop
      have hSame := (at_of_drop hDrop).1
      rw [hAt] at hSame
      rw [← Option.some.inj hSame]
      exact hSign
  · left
    refine ⟨if_neg hRoom, ?_⟩
    intro c d rest hDrop
    have hBound := (at_of_drop (at_of_drop hDrop).2.1).2.2
    rw [endIdx] at hRoom
    omega

/-
  The last character that was passed tells whether there were
  digits, since what stands before them is none.
-/
theorem digit_before
    {s : List Char}
    {idx : Nat}
    {c : Char}
    (hAt : s[idx]? = some c)
    (hC : c.isDigit = false) :
    digit s (skipDigits s (idx + 1) - 1) =
      digit s (idx + 1) := by
  cases hDigit : digit s (idx + 1) with
  | true => exact digit_last s.length (by omega) hDigit
  | false =>
      rw [skipDigits_of_not hDigit, Nat.add_sub_cancel,
        digit_of_at hAt]
      exact hC

/- An exponent whose letter has been read. -/
theorem part_exponent
    {s : List Char}
    {start idx signed : Nat}
    (hIdx : idx ≤ s.length)
    (hSigned : idx < signed)
    (hDigit :
      digit s (skipDigits s signed - 1) = digit s signed)
    (hRule :
      ∀ d, s[signed]? = some d → d.isDigit = true →
        ∀ rest, Digits (s.drop (signed + 1)) rest →
          Exponent (s.drop idx) rest)
    (hOnly :
      ∀ rest, Exponent (s.drop idx) rest → rest = s.drop idx ∨
        ∃ d, s[signed]? = some d ∧ d.isDigit = true ∧
          Digits (s.drop (signed + 1)) rest)
    (hStarts : ¬ AfterNumber (s.drop idx)) :
    Part s start Exponent AfterNumber 0 idx
      (if digit s (skipDigits s signed - 1) then
        .ok (skipDigits s signed)
      else
        .ok idx) := by
  rw [hDigit]
  cases hSome : digit s signed with
  | true =>
      obtain ⟨d, hAt, hD⟩ := at_of_digit hSome
      have hBound := (drop_of_at hAt).2
      have hPassed := le_skipDigits s (signed + 1)
      rw [if_pos rfl, skipDigits_of_digit hAt hD]
      refine Part.found (by omega) (skipDigits_le hBound)
        (hRule d hAt hD _ (digits_skipDigits s (signed + 1))) ?_
      intro rest hExponent hNext
      rcases hOnly rest hExponent with hSame | ⟨_, _, _, hMore⟩
      · rw [hSame] at hNext
        exact absurd hNext hStarts
      · exact drop_eq_skipDigits hMore
          hNext.afterFraction.afterDigits
  | false =>
      rw [if_neg Bool.noConfusion]
      apply part_left_out hIdx .none
      intro rest hExponent _
      rcases hOnly rest hExponent with hSame | ⟨d, hAt, hD, _⟩
      · exact hSame
      · rw [digit_of_at hAt, hD] at hSome
        cases hSome

theorem part_afterExponent
    {s : List Char}
    {idx : Nat}
    (start : Nat)
    (hIdx : idx ≤ s.length) :
    Part s start Exponent AfterNumber 0 idx
      (afterExponent s idx) := by
  rw [afterExponent]
  by_cases hRoom : (idx : Int) < endIdx s
  · have hInside : idx < s.length := by
      rw [endIdx] at hRoom
      omega
    obtain ⟨e, hAt⟩ := exists_at hInside
    obtain ⟨hDrop, hBound⟩ := drop_of_at hAt
    rw [if_pos hRoom, index_of_at hAt]
    change Part s start _ _ 0 idx (if _ then _ else _)
    by_cases hE : e = 'e' ∨ e = 'E'
    · rw [if_pos hE]
      have hStarts : ¬ AfterNumber (s.drop idx) := by
        intro hNext
        rw [hDrop] at hNext
        have hLetter := hNext e rfl
        exact hE.elim hLetter.2.2.1 hLetter.2.2.2
      rcases afterSign_cases hBound with
        ⟨hOk, hUnsigned⟩ | ⟨c, hOk, hSignAt, hSign⟩
      · have hOne := le_skipDigits s (idx + 1)
        simp only [hOk, bind, Except.bind,
          sub_of_le (Nat.le_trans (Nat.le_add_left 1 idx) hOne)]
        apply part_exponent hIdx (Nat.lt_succ_self idx)
          (digit_before hAt (isDigit_exponent hE)) _ _ hStarts
        · intro d hAtD hD rest hMore
          rw [hDrop, (drop_of_at hAtD).1]
          exact .bare hE hD hMore
        · intro rest hExponent
          rw [hDrop] at hExponent
          generalize hText : s.drop (idx + 1) = text at hExponent
          cases hExponent with
          | none =>
              left
              rw [hDrop, hText]
          | bare _ hD hMore =>
              right
              obtain ⟨hAtD, hTail, _⟩ := at_of_drop hText
              rw [← hTail] at hMore
              exact ⟨_, hAtD, hD, hMore⟩
          | signed _ hSign _ _ =>
              exact absurd hSign (hUnsigned _ _ _ hText)
      · have hOne := le_skipDigits s (idx + 1 + 1)
        obtain ⟨hDropSign, hBoundSign⟩ := drop_of_at hSignAt
        simp only [hOk, bind, Except.bind,
          sub_of_le (Nat.le_trans (Nat.le_add_left 1 _) hOne)]
        apply part_exponent hIdx (by omega)
          (digit_before hSignAt (isDigit_sign hSign)) _ _ hStarts
        · intro d hAtD hD rest hMore
          rw [hDrop, hDropSign, (drop_of_at hAtD).1]
          exact .signed hE hSign hD hMore
        · intro rest hExponent
          rw [hDrop, hDropSign] at hExponent
          generalize hText : s.drop (idx + 1 + 1) = text
            at hExponent
          cases hExponent with
          | none =>
              left
              rw [hDrop, hDropSign, hText]
          | bare _ hD _ =>
              rw [isDigit_sign hSign] at hD
              cases hD
          | signed _ _ hD hMore =>
              right
              obtain ⟨hAtD, hTail, _⟩ := at_of_drop hText
              rw [← hTail] at hMore
              exact ⟨_, hAtD, hD, hMore⟩
    · rw [if_neg hE]
      apply part_left_out hIdx .none
      intro rest hExponent _
      rw [hDrop] at hExponent ⊢
      generalize s.drop (idx + 1) = tail at hExponent ⊢
      cases hExponent with
      | none => rfl
      | bare hOther _ _ => exact absurd hOther hE
      | signed hOther _ _ _ => exact absurd hOther hE
  · rw [if_neg hRoom]
    apply part_left_out hIdx .none
    intro rest hExponent _
    have hShort : (s.drop idx).length ≤ 1 := by
      rw [endIdx] at hRoom
      rw [List.length_drop]
      omega
    generalize s.drop idx = text at hShort hExponent
    cases hExponent with
    | none => rfl
    | bare _ _ _ =>
        rw [List.length_cons, List.length_cons] at hShort
        omega
    | signed _ _ _ _ =>
        rw [List.length_cons, List.length_cons] at hShort
        omega

theorem number_iff_comp (text rest : List Char) :
    Number text rest ↔
      Relation.Comp Minus
        (Relation.Comp Whole (Relation.Comp Fraction Exponent))
        text rest := by
  constructor
  · rintro ⟨hMinus, hWhole, hFraction, hExponent⟩
    exact ⟨_, hMinus, _, hWhole, _, hFraction, hExponent⟩
  · rintro ⟨_, hMinus, _, hWhole, _, hFraction, hExponent⟩
    exact .parts hMinus hWhole hFraction hExponent

/- What stands behind the whole part of a number. -/
theorem part_behindWhole
    {s : List Char}
    (start : Nat)
    {idx : Nat}
    (hIdx : idx ≤ s.length) :
    Part s start (Relation.Comp Fraction Exponent) AfterNumber 0
      idx (afterFraction s idx >>= afterExponent s) := by
  refine (part_afterFraction start hIdx).bind
    (fun j hJ => part_afterExponent start hJ) ?_
  intro middle rest hExponent hNext
  exact hExponent.afterFraction hNext.afterFraction

/- What stands behind the sign of a number. -/
theorem part_behindMinus
    {s : List Char}
    (start idx : Nat) :
    Part s start
      (Relation.Comp Whole (Relation.Comp Fraction Exponent))
      AfterNumber 1 idx
      (afterWhole s start idx >>= fun idx =>
        afterFraction s idx >>= afterExponent s) := by
  refine (part_afterWhole start idx).bind
    (fun j hJ => part_behindWhole start hJ) ?_
  rintro middle rest ⟨_, hFraction, hExponent⟩ hNext
  have hPoint := hExponent.afterFraction hNext.afterFraction
  exact hFraction.afterDigits hPoint.afterDigits

theorem part_number
    {s : List Char}
    {idx : Nat}
    (hIdx : idx ≤ s.length) :
    Part s idx Number AfterNumber 1 idx (number s idx) := by
  have hSame :
      Number =
        Relation.Comp Minus
          (Relation.Comp Whole
            (Relation.Comp Fraction Exponent)) := by
    funext text rest
    exact propext (number_iff_comp text rest)
  rw [hSame]
  refine (part_afterMinus hIdx).bind
    (fun j _ => part_behindMinus idx j) ?_
  rintro middle rest ⟨_, hDigits, _⟩ _
  exact hDigits.startsDigit

end PyJson

end SentinelCommand
