import Mathlib.Data.List.Basic

/-
  Anchored regular expressions with capture groups: what a
  pattern matches, and a matcher that backtracks and prefers
  the longer match of each repetition.

  Repetition is of a class of characters, and groups stand
  outside repetitions and optional parts.

  Key definitions include:
    * `Regex.Pattern`
    * `Regex.Matches`
    * `Regex.attempts`, `Regex.captures`

  Key theorems include:
    * `Regex.mem_attempts_iff`
    * `Regex.captures_eq_none_iff`
    * `Regex.captures_eq_some_of_unique`
    * `Regex.matches_seq_iff`, `Regex.matches_plus_iff`
-/

--------------------
-- Patterns
--------------------

namespace Regex

inductive Pattern where
  | literal (text : List Char)
  | one (class_ : Char → Bool)
  | many (class_ : Char → Bool)
  | seq (first second : Pattern)
  | optional (inner : Pattern)
  | group (inner : Pattern)

/- One of a class, and more. -/
def Pattern.plus (class_ : Char → Bool) : Pattern :=
  .seq (.one class_) (.many class_)

/- The texts of a pattern, with what its groups capture. -/
inductive Matches :
    Pattern → List Char → List (List Char) → Prop where
  | literal (text : List Char) :
      Matches (.literal text) text []
  | one
      {class_ : Char → Bool}
      {c : Char}
      (hClass : class_ c = true) :
      Matches (.one class_) [c] []
  | many
      {class_ : Char → Bool}
      {text : List Char}
      (hClass : ∀ c ∈ text, class_ c = true) :
      Matches (.many class_) text []
  | seq
      {first second : Pattern}
      {xs ys : List Char}
      {caps more : List (List Char)}
      (hFirst : Matches first xs caps)
      (hSecond : Matches second ys more) :
      Matches (.seq first second) (xs ++ ys) (caps ++ more)
  | skipped (inner : Pattern) :
      Matches (.optional inner) [] []
  | taken
      {inner : Pattern}
      {text : List Char}
      {caps : List (List Char)}
      (hInner : Matches inner text caps) :
      Matches (.optional inner) text caps
  | group
      {inner : Pattern}
      {text : List Char}
      {caps : List (List Char)}
      (hInner : Matches inner text caps) :
      Matches (.group inner) text (text :: caps)

--------------------
-- Matching
--------------------

/- What is captured, and what is left of the text. -/
abbrev Attempt : Type :=
  List (List Char) × List Char

/- The ways to repeat a class, the longest first. -/
def repeats (class_ : Char → Bool) : List Char → List Attempt
| [] => [([], [])]
| c :: rest =>
    if class_ c then
      repeats class_ rest ++ [([], c :: rest)]
    else
      [([], c :: rest)]

/- The ways to match at the start, the preferred first. -/
def attempts : Pattern → List Char → List Attempt
| .literal start, text =>
    if start <+: text then [([], text.drop start.length)]
    else []
| .one _, [] => []
| .one class_, c :: rest =>
    if class_ c then [([], rest)] else []
| .many class_, text => repeats class_ text
| .seq first second, text =>
    (attempts first text).flatMap (fun attempt =>
      (attempts second attempt.2).map (fun next =>
        (attempt.1 ++ next.1, next.2)))
| .optional inner, text =>
    attempts inner text ++ [([], text)]
| .group inner, text =>
    (attempts inner text).map (fun attempt =>
      (text.take (text.length - attempt.2.length) ::
        attempt.1, attempt.2))

/- The preferred match of the whole text. -/
def captures
    (pattern : Pattern)
    (text : List Char) : Option (List (List Char)) :=
  ((attempts pattern text).find? (fun attempt =>
    attempt.2.isEmpty)).map Prod.fst

def isMatch (pattern : Pattern) (text : List Char) : Bool :=
  (captures pattern text).isSome

theorem mem_repeats_iff
    {class_ : Char → Bool}
    {text rest : List Char}
    {caps : List (List Char)} :
    (caps, rest) ∈ repeats class_ text ↔
      caps = [] ∧
        ∃ start, text = start ++ rest ∧
          ∀ c ∈ start, class_ c = true := by
  induction text with
  | nil =>
      rw [repeats, List.mem_singleton, Prod.mk.injEq]
      constructor
      · rintro ⟨rfl, rfl⟩
        exact ⟨rfl, [], rfl, nofun⟩
      · rintro ⟨rfl, start, hText, _⟩
        exact ⟨rfl,
          (List.append_eq_nil_iff.mp hText.symm).2⟩
  | cons c text ih =>
      have hWhole :
          (caps, rest) ∈ [(([] : List (List Char)), c :: text)] →
            caps = [] ∧
              ∃ start, c :: text = start ++ rest ∧
                ∀ c ∈ start, class_ c = true := by
        intro hMem
        rw [List.mem_singleton, Prod.mk.injEq] at hMem
        exact ⟨hMem.1, [], hMem.2.symm, nofun⟩
      rw [repeats]
      split_ifs with hClass
      · rw [List.mem_append, ih]
        constructor
        · rintro (⟨hCaps, start, hText, hStart⟩ | hMem)
          · refine ⟨hCaps, c :: start, ?_, ?_⟩
            · rw [hText, List.cons_append]
            · rw [List.forall_mem_cons]
              exact ⟨hClass, hStart⟩
          · exact hWhole hMem
        · rintro ⟨hCaps, start, hText, hStart⟩
          cases start with
          | nil =>
              rw [List.nil_append] at hText
              rw [hCaps, ← hText]
              exact Or.inr List.mem_cons_self
          | cons d start =>
              rw [List.cons_append, List.cons.injEq] at hText
              rw [List.forall_mem_cons] at hStart
              exact Or.inl ⟨hCaps, start, hText.2, hStart.2⟩
      · refine ⟨hWhole, ?_⟩
        rintro ⟨hCaps, start, hText, hStart⟩
        cases start with
        | nil =>
            rw [List.nil_append] at hText
            rw [hCaps, ← hText]
            exact List.mem_cons_self
        | cons d start =>
            rw [List.cons_append, List.cons.injEq] at hText
            rw [List.forall_mem_cons, ← hText.1] at hStart
            exact absurd hStart.1 hClass

/- The matcher finds exactly what the pattern matches. -/
theorem mem_attempts_iff
    {pattern : Pattern}
    {text rest : List Char}
    {caps : List (List Char)} :
    (caps, rest) ∈ attempts pattern text ↔
      ∃ start, text = start ++ rest ∧
        Matches pattern start caps := by
  induction pattern generalizing text rest caps with
  | literal word =>
      rw [attempts]
      constructor
      · intro hMem
        split_ifs at hMem with hStart
        · rw [List.mem_singleton, Prod.mk.injEq] at hMem
          rcases hMem with ⟨rfl, rfl⟩
          rcases hStart with ⟨more, rfl⟩
          refine ⟨word, ?_, .literal word⟩
          rw [List.drop_left]
        · exact absurd hMem List.not_mem_nil
      · rintro ⟨start, rfl, hMatch⟩
        cases hMatch
        rw [if_pos (List.prefix_append _ _), List.drop_left]
        exact List.mem_cons_self
  | one class_ =>
      cases text with
      | nil =>
          refine iff_of_false List.not_mem_nil ?_
          rintro ⟨start, hText, hMatch⟩
          cases hMatch
          exact absurd hText nofun
      | cons c text =>
          rw [attempts]
          constructor
          · intro hMem
            split_ifs at hMem with hClass
            · rw [List.mem_singleton, Prod.mk.injEq] at hMem
              rcases hMem with ⟨rfl, rfl⟩
              exact ⟨[c], rfl, .one hClass⟩
            · exact absurd hMem List.not_mem_nil
          · rintro ⟨start, hText, hMatch⟩
            cases hMatch with
            | @one _ d hClass =>
                rw [List.singleton_append,
                  List.cons.injEq] at hText
                rcases hText with ⟨rfl, rfl⟩
                rw [if_pos hClass]
                exact List.mem_cons_self
  | many class_ =>
      rw [attempts, mem_repeats_iff]
      constructor
      · rintro ⟨rfl, start, hText, hStart⟩
        exact ⟨start, hText, .many hStart⟩
      · rintro ⟨start, hText, hMatch⟩
        cases hMatch with
        | many hStart => exact ⟨rfl, start, hText, hStart⟩
  | seq first second ihFirst ihSecond =>
      rw [attempts, List.mem_flatMap]
      constructor
      · rintro ⟨⟨mine, middle⟩, hFirst, hMem⟩
        rw [List.mem_map] at hMem
        rcases hMem with ⟨⟨more, last⟩, hSecond, hPair⟩
        rw [Prod.mk.injEq] at hPair
        rcases hPair with ⟨rfl, rfl⟩
        rcases ihFirst.mp hFirst with ⟨xs, rfl, hXs⟩
        rcases ihSecond.mp hSecond with ⟨ys, hMiddle, hYs⟩
        refine ⟨xs ++ ys, ?_, .seq hXs hYs⟩
        rw [List.append_assoc, ← hMiddle]
      · rintro ⟨start, rfl, hMatch⟩
        cases hMatch with
        | @seq _ _ xs ys mine more hXs hYs =>
            refine ⟨(mine, ys ++ rest),
              ihFirst.mpr ⟨xs, List.append_assoc _ _ _, hXs⟩,
              ?_⟩
            rw [List.mem_map]
            exact ⟨(more, rest), ihSecond.mpr ⟨ys, rfl, hYs⟩,
              rfl⟩
  | optional inner ih =>
      rw [attempts, List.mem_append, ih, List.mem_singleton,
        Prod.mk.injEq]
      constructor
      · rintro (⟨start, hText, hMatch⟩ | ⟨rfl, rfl⟩)
        · exact ⟨start, hText, .taken hMatch⟩
        · exact ⟨[], rfl, .skipped inner⟩
      · rintro ⟨start, hText, hMatch⟩
        cases hMatch with
        | skipped => exact Or.inr ⟨rfl, hText.symm⟩
        | taken hMatch => exact Or.inl ⟨start, hText, hMatch⟩
  | group inner ih =>
      rw [attempts, List.mem_map]
      constructor
      · rintro ⟨⟨mine, last⟩, hInner, hPair⟩
        rw [Prod.mk.injEq] at hPair
        rcases hPair with ⟨rfl, rfl⟩
        rcases ih.mp hInner with ⟨start, rfl, hMatch⟩
        refine ⟨start, rfl, ?_⟩
        rw [List.length_append, Nat.add_sub_cancel,
          List.take_left]
        exact .group hMatch
      · rintro ⟨start, rfl, hMatch⟩
        cases hMatch with
        | @group _ _ mine hMatch =>
            refine ⟨(mine, rest), ih.mpr ⟨start, rfl, hMatch⟩,
              ?_⟩
            rw [List.length_append, Nat.add_sub_cancel,
              List.take_left]

theorem matches_of_captures
    {pattern : Pattern}
    {text : List Char}
    {caps : List (List Char)}
    (hCaptures : captures pattern text = some caps) :
    Matches pattern text caps := by
  rw [captures, Option.map_eq_some_iff] at hCaptures
  rcases hCaptures with ⟨⟨mine, rest⟩, hFound, rfl⟩
  have hMem := List.mem_of_find?_eq_some hFound
  have hEnd := List.find?_some hFound
  rw [List.isEmpty_iff] at hEnd
  rcases mem_attempts_iff.mp hMem with ⟨start, hText, hMatch⟩
  dsimp only at hEnd
  rw [hEnd, List.append_nil] at hText
  rw [hText]
  exact hMatch

theorem captures_eq_none_iff
    {pattern : Pattern}
    {text : List Char} :
    captures pattern text = none ↔
      ∀ caps, ¬Matches pattern text caps := by
  rw [captures, Option.map_eq_none_iff, List.find?_eq_none]
  constructor
  · intro hNone caps hMatch
    exact hNone (caps, [])
      (mem_attempts_iff.mpr
        ⟨text, (List.append_nil text).symm, hMatch⟩) rfl
  · rintro hNone ⟨caps, rest⟩ hMem hEnd
    rw [List.isEmpty_iff] at hEnd
    dsimp only at hEnd
    subst hEnd
    rcases mem_attempts_iff.mp hMem with
      ⟨start, hText, hMatch⟩
    rw [List.append_nil] at hText
    rw [← hText] at hMatch
    exact hNone caps hMatch

/- Where a text matches in one way only, that is found. -/
theorem captures_eq_some_of_unique
    {pattern : Pattern}
    {text : List Char}
    {caps : List (List Char)}
    (hMatch : Matches pattern text caps)
    (hUnique :
      ∀ other, Matches pattern text other → other = caps) :
    captures pattern text = some caps := by
  cases hFound : captures pattern text with
  | none =>
      exact absurd hMatch (captures_eq_none_iff.mp hFound caps)
  | some other =>
      rw [hUnique other (matches_of_captures hFound)]

theorem isMatch_iff
    {pattern : Pattern}
    {text : List Char} :
    isMatch pattern text = true ↔
      ∃ caps, Matches pattern text caps := by
  rw [isMatch, Option.isSome_iff_ne_none, ne_eq,
    captures_eq_none_iff, not_forall_not]

--------------------
-- What Each Pattern Matches
--------------------

variable {text : List Char}
variable {caps : List (List Char)}

theorem matches_literal_iff {word : List Char} :
    Matches (.literal word) text caps ↔
      text = word ∧ caps = [] := by
  constructor
  · intro hMatch
    cases hMatch
    exact ⟨rfl, rfl⟩
  · rintro ⟨rfl, rfl⟩
    exact .literal text

theorem matches_many_iff {class_ : Char → Bool} :
    Matches (.many class_) text caps ↔
      (∀ c ∈ text, class_ c = true) ∧ caps = [] := by
  constructor
  · intro hMatch
    cases hMatch with
    | many hClass => exact ⟨hClass, rfl⟩
  · rintro ⟨hClass, rfl⟩
    exact .many hClass

theorem matches_one_iff {class_ : Char → Bool} :
    Matches (.one class_) text caps ↔
      ∃ c, text = [c] ∧ class_ c = true ∧ caps = [] := by
  constructor
  · intro hMatch
    cases hMatch with
    | one hClass => exact ⟨_, rfl, hClass, rfl⟩
  · rintro ⟨c, rfl, hClass, rfl⟩
    exact .one hClass

theorem matches_seq_iff {first second : Pattern} :
    Matches (.seq first second) text caps ↔
      ∃ xs ys mine more, text = xs ++ ys ∧
        caps = mine ++ more ∧ Matches first xs mine ∧
        Matches second ys more := by
  constructor
  · intro hMatch
    cases hMatch with
    | seq hFirst hSecond =>
        exact ⟨_, _, _, _, rfl, rfl, hFirst, hSecond⟩
  · rintro ⟨xs, ys, mine, more, rfl, rfl, hFirst, hSecond⟩
    exact .seq hFirst hSecond

theorem matches_optional_iff {inner : Pattern} :
    Matches (.optional inner) text caps ↔
      text = [] ∧ caps = [] ∨ Matches inner text caps := by
  constructor
  · intro hMatch
    cases hMatch with
    | skipped => exact Or.inl ⟨rfl, rfl⟩
    | taken hInner => exact Or.inr hInner
  · rintro (⟨rfl, rfl⟩ | hInner)
    · exact .skipped inner
    · exact .taken hInner

theorem matches_group_iff {inner : Pattern} :
    Matches (.group inner) text caps ↔
      ∃ mine, caps = text :: mine ∧
        Matches inner text mine := by
  constructor
  · intro hMatch
    cases hMatch with
    | group hInner => exact ⟨_, rfl, hInner⟩
  · rintro ⟨mine, rfl, hInner⟩
    exact .group hInner

theorem matches_plus_iff {class_ : Char → Bool} :
    Matches (.plus class_) text caps ↔
      text ≠ [] ∧ (∀ c ∈ text, class_ c = true) ∧
        caps = [] := by
  rw [Pattern.plus, matches_seq_iff]
  constructor
  · rintro ⟨xs, ys, mine, more, rfl, rfl, hOne, hMany⟩
    rcases matches_one_iff.mp hOne with ⟨c, rfl, hClass, rfl⟩
    rcases matches_many_iff.mp hMany with ⟨hRest, rfl⟩
    refine ⟨nofun, ?_, rfl⟩
    rw [List.singleton_append, List.forall_mem_cons]
    exact ⟨hClass, hRest⟩
  · rintro ⟨hNonempty, hAll, rfl⟩
    cases text with
    | nil => exact absurd rfl hNonempty
    | cons c rest =>
        rw [List.forall_mem_cons] at hAll
        exact ⟨[c], rest, [], [], rfl, rfl, .one hAll.1,
          .many hAll.2⟩

end Regex
