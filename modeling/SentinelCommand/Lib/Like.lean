import Mathlib.Data.List.Infix

/-
  The LIKE of SQL with a backslash as its escape: `%` stands
  for any text and `_` for any character. How two characters
  are compared is a parameter, with or without case.

  Main declarations:
    * `Like.covers`, `Like.quoted`
    * `Like.covers_contains_iff`
-/

--------------------
-- Patterns
--------------------

namespace Like

variable {same : Char → Char → Bool}

/- The pattern matches the text. -/
def covers
    (same : Char → Char → Bool) :
    List Char → List Char → Bool
| [], text => text.isEmpty
| '%' :: rest, text => text.tails.any (covers same rest)
| '_' :: _, [] => false
| '_' :: rest, _ :: text => covers same rest text
| '\\' :: _ :: _, [] => false
| '\\' :: e :: rest, c :: text =>
    same e c && covers same rest text
| _ :: _, [] => false
| e :: rest, c :: text => same e c && covers same rest text

def special (c : Char) : Bool :=
  c = '%' || c = '_' || c = '\\'

/- A text as the pattern of itself. -/
def quoted (text : List Char) : List Char :=
  text.flatMap (fun c => if special c then ['\\', c] else [c])

/- The texts are alike character by character. -/
def Alike
    (same : Char → Char → Bool)
    (a b : List Char) : Prop :=
  List.Forall₂ (fun x y => same x y = true) a b

theorem covers_percent_iff
    {rest text : List Char} :
    covers same ('%' :: rest) text = true ↔
      ∃ a b, text = a ++ b ∧ covers same rest b = true := by
  rw [covers, List.any_eq_true]
  constructor
  · rintro ⟨b, hTail, hRest⟩
    rcases (List.mem_tails _ _).mp hTail with ⟨a, rfl⟩
    exact ⟨a, b, rfl, hRest⟩
  · rintro ⟨a, b, rfl, hRest⟩
    exact
      ⟨b, (List.mem_tails _ _).mpr (List.suffix_append a b),
        hRest⟩

/- One character of a quoted text stands for itself. -/
theorem covers_quoted_cons_iff
    {e : Char}
    {rest text : List Char} :
    covers same (quoted [e] ++ rest) text = true ↔
      ∃ c more, text = c :: more ∧ same e c = true ∧
        covers same rest more = true := by
  by_cases hSpecial : special e = true
  · have hQuoted : quoted [e] ++ rest = '\\' :: e :: rest := by
      simp [quoted, hSpecial]
    rw [hQuoted]
    cases text with
    | nil => simp [covers]
    | cons c more => simp [covers]
  · have hQuoted : quoted [e] ++ rest = e :: rest := by
      simp [quoted, hSpecial]
    simp only [special, Bool.or_eq_true, decide_eq_true_eq,
      not_or] at hSpecial
    rw [hQuoted]
    cases text with
    | nil => simp [covers, hSpecial]
    | cons c more => simp [covers, hSpecial]

theorem covers_quoted_iff
    {word rest text : List Char} :
    covers same (quoted word ++ rest) text = true ↔
      ∃ a b, text = a ++ b ∧ Alike same word a ∧
        covers same rest b = true := by
  induction word generalizing text with
  | nil =>
      constructor
      · intro hRest
        exact ⟨[], text, rfl, List.Forall₂.nil, hRest⟩
      · rintro ⟨a, b, rfl, hAlike, hRest⟩
        cases hAlike
        exact hRest
  | cons e word ih =>
      have hQuoted :
          quoted (e :: word) ++ rest =
            quoted [e] ++ (quoted word ++ rest) := by
        simp [quoted]
      rw [hQuoted, covers_quoted_cons_iff]
      constructor
      · rintro ⟨c, more, rfl, hSame, hMore⟩
        rcases ih.mp hMore with ⟨a, b, rfl, hAlike, hRest⟩
        exact
          ⟨c :: a, b, rfl, List.Forall₂.cons hSame hAlike,
            hRest⟩
      · rintro ⟨a, b, rfl, hAlike, hRest⟩
        cases hAlike with
        | cons hSame hAlike =>
            exact
              ⟨_, _, rfl, hSame,
                ih.mpr ⟨_, b, rfl, hAlike, hRest⟩⟩

/- A quoted text between two `%` is looked for as it stands. -/
theorem covers_contains_iff
    {word text : List Char} :
    covers same ('%' :: (quoted word ++ ['%'])) text = true ↔
      ∃ a found b, text = a ++ found ++ b ∧
        Alike same word found := by
  rw [covers_percent_iff]
  constructor
  · rintro ⟨a, more, rfl, hMore⟩
    rcases covers_quoted_iff.mp hMore with
      ⟨found, b, rfl, hAlike, -⟩
    exact
      ⟨a, found, b, (List.append_assoc a found b).symm, hAlike⟩
  · rintro ⟨a, found, b, rfl, hAlike⟩
    refine ⟨a, found ++ b, List.append_assoc a found b, ?_⟩
    apply covers_quoted_iff.mpr
    refine ⟨found, b, rfl, hAlike, ?_⟩
    apply covers_percent_iff.mpr
    exact ⟨b, [], (List.append_nil b).symm, by simp [covers]⟩

end Like
