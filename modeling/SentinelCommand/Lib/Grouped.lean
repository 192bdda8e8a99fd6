import SentinelCommand.Lib.Numeral

/-
  Numerals whose digits are grouped by single underscores.

  Key definitions include:
    * `Numeral.Grouped`, `Numeral.Continues`

  Key theorems include:
    * `Numeral.grouped_unique`
    * `Numeral.continues_iff`
-/

--------------------
-- Grouping
--------------------

namespace Numeral

/-
  A text of digits with single underscores between them, and
  its digits.
-/
inductive Grouped : List Char → List Char → Prop where
  | last {c : Char} :
      c.isDigit = true → Grouped [c] [c]
  | digit {c : Char} {rest digits : List Char} :
      c.isDigit = true → Grouped rest digits →
        Grouped (c :: rest) (c :: digits)
  | group {c : Char} {rest digits : List Char} :
      c.isDigit = true → Grouped rest digits →
        Grouped (c :: '_' :: rest) (c :: digits)

theorem Grouped.isNumeral
    {text digits : List Char}
    (hGrouped : Grouped text digits) :
    IsNumeral digits ∧ digits ≠ [] := by
  induction hGrouped with
  | last hDigit =>
      exact ⟨by simpa [IsNumeral] using hDigit, by simp⟩
  | digit hDigit _ ih | group hDigit _ ih =>
      refine ⟨?_, by simp⟩
      intro d hD
      rcases List.mem_cons.mp hD with rfl | hRest
      · exact hDigit
      · exact ih.1 d hRest

/- A grouped numeral starts and ends with a digit. -/
theorem Grouped.head
    {text digits : List Char}
    (hGrouped : Grouped text digits) :
    ∃ c rest, text = c :: rest ∧ c.isDigit = true := by
  cases hGrouped with
  | last hDigit => exact ⟨_, _, rfl, hDigit⟩
  | digit hDigit _ => exact ⟨_, _, rfl, hDigit⟩
  | group hDigit _ => exact ⟨_, _, rfl, hDigit⟩

theorem Grouped.getLast
    {text digits : List Char}
    (hGrouped : Grouped text digits) :
    ∃ c, text.getLast? = some c ∧ c.isDigit = true := by
  induction hGrouped with
  | last hDigit => exact ⟨_, rfl, hDigit⟩
  | digit _ hRest ih | group _ hRest ih =>
      obtain ⟨c, hC, hDigit⟩ := ih
      obtain ⟨d, tail, rfl, -⟩ := hRest.head
      refine ⟨c, ?_, hDigit⟩
      simpa [List.getLast?_cons_cons] using hC

/- The digits are what is left without the underscores. -/
theorem Grouped.digits_eq
    {text digits : List Char}
    (hGrouped : Grouped text digits) :
    digits = text.filter (· ≠ '_') := by
  have hNot :
      ∀ c : Char, c.isDigit = true → c ≠ '_' := by
    rintro c hDigit rfl
    cases hDigit
  induction hGrouped with
  | last hDigit => simp [hNot _ hDigit]
  | digit hDigit _ ih => simp [hNot _ hDigit, ih]
  | group hDigit _ ih => simp [hNot _ hDigit, ih]

theorem grouped_unique
    {text digits digits' : List Char}
    (hGrouped : Grouped text digits)
    (hGrouped' : Grouped text digits') :
    digits = digits' :=
  hGrouped.digits_eq.trans hGrouped'.digits_eq.symm

/- A plain numeral is grouped, without any underscore. -/
theorem grouped_of_isNumeral
    {text : List Char}
    (hNumeral : IsNumeral text)
    (hNe : text ≠ []) :
    Grouped text text := by
  induction text with
  | nil => exact absurd rfl hNe
  | cons c rest ih =>
      have hDigit := hNumeral c List.mem_cons_self
      cases rest with
      | nil => exact Grouped.last hDigit
      | cons d tail =>
          exact Grouped.digit hDigit
            (ih (fun x hX =>
              hNumeral x (List.mem_cons_of_mem c hX))
              (List.cons_ne_nil d tail))

/- What goes on from a character before it, and its digits. -/
inductive Continues : List Char → List Char → Prop where
  | done : Continues [] []
  | digits {rest digits : List Char} :
      Grouped rest digits → Continues rest digits
  | group {rest digits : List Char} :
      Grouped rest digits → Continues ('_' :: rest) digits

theorem continues_cons_iff
    {c : Char}
    {rest digits : List Char}
    (hDigit : c.isDigit = true) :
    Grouped (c :: rest) digits ↔
      ∃ more, Continues rest more ∧ digits = c :: more := by
  constructor
  · intro hGrouped
    cases hGrouped with
    | last _ => exact ⟨[], Continues.done, rfl⟩
    | digit _ hRest => exact ⟨_, Continues.digits hRest, rfl⟩
    | group _ hRest => exact ⟨_, Continues.group hRest, rfl⟩
  · rintro ⟨more, hMore, rfl⟩
    cases hMore with
    | done => exact Grouped.last hDigit
    | digits hRest => exact Grouped.digit hDigit hRest
    | group hRest => exact Grouped.group hDigit hRest

theorem Continues.digits_eq
    {text digits : List Char}
    (hContinues : Continues text digits) :
    digits = text.filter (· ≠ '_') := by
  cases hContinues with
  | done => rfl
  | digits hGrouped => exact hGrouped.digits_eq
  | group hGrouped => simpa using hGrouped.digits_eq

theorem Continues.isNumeral
    {text digits : List Char}
    (hContinues : Continues text digits) :
    IsNumeral digits := by
  cases hContinues with
  | done =>
      intro c hC
      cases hC
  | digits hGrouped => exact hGrouped.isNumeral.1
  | group hGrouped => exact hGrouped.isNumeral.1

--------------------
-- Underscores
--------------------

/- Two underscores side by side, past the first character. -/
theorem infix_cons_iff
    {c : Char}
    (rest : List Char)
    (hC : c ≠ '_') :
    ['_', '_'] <:+: c :: rest ↔ ['_', '_'] <:+: rest := by
  rw [List.infix_cons_iff]
  constructor
  · rintro (hPrefix | hInfix)
    · have hFirst := (List.cons_prefix_cons.mp hPrefix).1
      exact absurd hFirst.symm hC
    · exact hInfix
  · exact Or.inr

theorem getLast_cons_ne_iff
    {c : Char}
    (rest : List Char)
    (hC : c ≠ '_') :
    (c :: rest).getLast? ≠ some '_' ↔
      rest.getLast? ≠ some '_' := by
  cases rest with
  | nil => simpa using hC
  | cons d tail => rw [List.getLast?_cons_cons]

theorem not_grouped_underscore
    (rest digits : List Char) :
    ¬Grouped ('_' :: rest) digits := by
  intro hGrouped
  obtain ⟨c, tail, hText, hDigit⟩ := hGrouped.head
  cases hText
  cases hDigit

theorem continues_underscore_iff
    (rest digits : List Char) :
    Continues ('_' :: rest) digits ↔ Grouped rest digits := by
  constructor
  · intro hContinues
    cases hContinues with
    | digits hGrouped =>
        exact absurd hGrouped (not_grouped_underscore _ _)
    | group hGrouped => exact hGrouped
  · exact Continues.group

theorem continues_digit_iff
    {c : Char}
    (rest digits : List Char)
    (hC : c ≠ '_') :
    Continues (c :: rest) digits ↔
      Grouped (c :: rest) digits := by
  constructor
  · intro hContinues
    cases hContinues with
    | digits hGrouped => exact hGrouped
    | group hGrouped => exact absurd rfl hC
  · exact Continues.digits

/- Both readings of a text at once, by its characters. -/
theorem continues_and_grouped_iff
    {text : List Char}
    (hNumeral : IsNumeral (text.filter (· ≠ '_'))) :
    (Continues text (text.filter (· ≠ '_')) ↔
        text.getLast? ≠ some '_' ∧ ¬['_', '_'] <:+: text) ∧
      (Grouped text (text.filter (· ≠ '_')) ↔
        text ≠ [] ∧ text.head? ≠ some '_' ∧
          text.getLast? ≠ some '_' ∧
          ¬['_', '_'] <:+: text) := by
  induction text with
  | nil =>
      constructor
      · refine ⟨fun _ => ⟨by simp, by simp⟩, fun _ => ?_⟩
        exact Continues.done
      · refine ⟨fun hGrouped => ?_, fun h => absurd rfl h.1⟩
        cases hGrouped
  | cons c rest ih =>
      by_cases hC : c = '_'
      · subst hC
        have hFilter :
            ('_' :: rest).filter (· ≠ '_') =
              rest.filter (· ≠ '_') := by
          simp
        rw [hFilter] at hNumeral ⊢
        obtain ⟨-, hGrouped⟩ := ih hNumeral
        constructor
        · rw [continues_underscore_iff, hGrouped]
          cases rest with
          | nil => simp
          | cons d tail =>
              have hInfix :
                  ['_', '_'] <:+: '_' :: d :: tail ↔
                    '_' = d ∨ ['_', '_'] <:+: d :: tail := by
                rw [List.infix_cons_iff]
                simp [List.cons_prefix_cons]
              rw [List.getLast?_cons_cons, hInfix]
              simp only [List.head?_cons, ne_eq, Option.some_inj]
              constructor
              · rintro ⟨-, hHead, hLast, hNot⟩
                exact ⟨hLast,
                  fun h => h.elim (fun h => hHead h.symm) hNot⟩
              · rintro ⟨hLast, hNot⟩
                exact ⟨List.cons_ne_nil d tail,
                  fun h => hNot (Or.inl h.symm), hLast,
                  fun h => hNot (Or.inr h)⟩
        · exact ⟨fun h => absurd h (not_grouped_underscore _ _),
            fun h => absurd rfl h.2.1⟩
      · have hFilter :
            (c :: rest).filter (· ≠ '_') =
              c :: rest.filter (· ≠ '_') := by
          simp [hC]
        rw [hFilter] at hNumeral ⊢
        have hDigit := hNumeral c List.mem_cons_self
        obtain ⟨hContinues, -⟩ := ih (fun d hD =>
          hNumeral d (List.mem_cons_of_mem c hD))
        have hGrouped :
            Grouped (c :: rest) (c :: rest.filter (· ≠ '_')) ↔
              Continues rest (rest.filter (· ≠ '_')) := by
          rw [continues_cons_iff hDigit]
          constructor
          · rintro ⟨more, hMore, hSame⟩
            cases hSame
            exact hMore
          · exact fun h => ⟨_, h, rfl⟩
        rw [continues_digit_iff _ _ hC, hGrouped, hContinues,
          getLast_cons_ne_iff rest hC, infix_cons_iff rest hC]
        refine ⟨Iff.rfl, ?_⟩
        simp [hC]

/-
  A text goes on with groups of digits exactly when it is
  digits and underscores, none at its end and no two side by
  side.
-/
theorem continues_iff
    {text : List Char}
    (hNumeral : IsNumeral (text.filter (· ≠ '_'))) :
    Continues text (text.filter (· ≠ '_')) ↔
      text.getLast? ≠ some '_' ∧
        ¬['_', '_'] <:+: text :=
  (continues_and_grouped_iff hNumeral).1

end Numeral
