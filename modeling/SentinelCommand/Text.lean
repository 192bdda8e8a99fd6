import Mathlib.Algebra.GroupWithZero.Nat

/-
  Text as lists of characters, where the readers of the
  program look inside it.

  Lower-casing beyond ASCII is a table of the standard
  library; where it matters it is a parameter of the model
  that uses it.

  Key definitions include:
    * `Text.trim`
    * `Text.utf8Len`
    * `Text.stripPrefix`
-/

namespace SentinelCommand

namespace Text

/- The characters with the property `White_Space`. -/
def isWhitespace (c : Char) : Bool :=
  let n := c.toNat
  (9 ≤ n && n ≤ 13) || n == 32 || n == 133 || n == 160 ||
    n == 5760 || (8192 ≤ n && n ≤ 8202) || n == 8232 ||
    n == 8233 || n == 8239 || n == 8287 || n == 12288

/- `str::trim`. -/
def trim (text : List Char) : List Char :=
  ((text.dropWhile isWhitespace).reverse.dropWhile
    isWhitespace).reverse

/- `str::len`. -/
def utf8Len (text : List Char) : Nat :=
  (text.map Char.utf8Size).sum

/- `HeaderValue::from_str`. -/
def isHeaderValue (text : List Char) : Bool :=
  text.all (fun c =>
    (32 ≤ c.toNat && c.toNat != 127) || c.toNat == 9)

/- `str::strip_prefix`. -/
def stripPrefix
    (start text : List Char) : Option (List Char) :=
  if start.isPrefixOf text then
    some (text.drop start.length)
  else
    none

/- `str::split_once`: around the first separator. -/
def splitOnce
    (sep : Char) :
    List Char → Option (List Char × List Char)
| [] => none
| c :: rest =>
    if c = sep then
      some ([], rest)
    else
      (splitOnce sep rest).map
        (fun parts => (c :: parts.1, parts.2))

/- What is left of a text after a prefix is the rest of it. -/
theorem stripPrefix_eq_some_iff
    (start text rest : List Char) :
    stripPrefix start text = some rest ↔
      text = start ++ rest := by
  unfold stripPrefix
  constructor
  · intro hStrip
    split at hStrip
    · rename_i hPrefix
      obtain ⟨tail, rfl⟩ := List.isPrefixOf_iff_prefix.mp hPrefix
      simpa using hStrip
    · cases hStrip
  · rintro rfl
    rw [if_pos (by simp)]
    simp

/- All of the characters are white space. -/
def Blank (text : List Char) : Prop :=
  ∀ c ∈ text, isWhitespace c = true

theorem dropWhile_blank
    {blank rest : List Char}
    (hBlank : Blank blank) :
    (blank ++ rest).dropWhile isWhitespace =
      rest.dropWhile isWhitespace := by
  induction blank with
  | nil => rfl
  | cons c tail ih =>
      rw [List.cons_append, List.dropWhile_cons_of_pos
        (hBlank c List.mem_cons_self)]
      exact ih (fun d hD =>
        hBlank d (List.mem_cons_of_mem c hD))

theorem dropWhile_eq_self
    {text : List Char}
    (hHead : ∀ c ∈ text.head?, isWhitespace c = false) :
    text.dropWhile isWhitespace = text := by
  cases text with
  | nil => rfl
  | cons c rest =>
      rw [List.dropWhile_cons_of_neg]
      simp [hHead c rfl]

/- Trimming a padded text, which has no blank at an end. -/
theorem trim_padded
    {left text right : List Char}
    (hLeft : Blank left)
    (hRight : Blank right)
    (hHead : ∀ c ∈ text.head?, isWhitespace c = false)
    (hLast : ∀ c ∈ text.getLast?, isWhitespace c = false) :
    trim (left ++ text ++ right) = text := by
  have hTail : Blank right.reverse :=
    fun c hC => hRight c (List.mem_reverse.mp hC)
  have hRev :
      ∀ c ∈ text.reverse.head?, isWhitespace c = false := by
    intro c hC
    exact hLast c (by rwa [List.head?_reverse] at hC)
  unfold trim
  rw [List.append_assoc, dropWhile_blank hLeft]
  by_cases hText : text = []
  · subst hText
    have hNil : right.dropWhile isWhitespace = [] := by
      have hDrop :
          (right ++ []).dropWhile isWhitespace = [] :=
        dropWhile_blank hRight
      rwa [List.append_nil] at hDrop
    rw [List.nil_append, hNil]
    rfl
  · have hStart :
        ∀ c ∈ (text ++ right).head?, isWhitespace c = false := by
      obtain ⟨d, rest, rfl⟩ := List.exists_cons_of_ne_nil hText
      exact hHead
    rw [dropWhile_eq_self hStart, List.reverse_append,
      dropWhile_blank hTail, dropWhile_eq_self hRev,
      List.reverse_reverse]

/- A text is what is left of it between two blanks. -/
theorem exists_padding (text : List Char) :
    ∃ left right, Blank left ∧ Blank right ∧
      text = left ++ trim text ++ right := by
  have hTake :
      ∀ xs : List Char, Blank (xs.takeWhile isWhitespace) :=
    fun xs => List.all_eq_true.mp List.all_takeWhile
  refine ⟨text.takeWhile isWhitespace,
    ((text.dropWhile isWhitespace).reverse.takeWhile
      isWhitespace).reverse, hTake text, ?_, ?_⟩
  · intro c hC
    exact hTake _ c (List.mem_reverse.mp hC)
  · unfold trim
    rw [List.append_assoc, ← List.reverse_append,
      List.takeWhile_append_dropWhile, List.reverse_reverse,
      List.takeWhile_append_dropWhile]

theorem splitOnce_eq_none_iff
    (sep : Char)
    (text : List Char) :
    splitOnce sep text = none ↔ sep ∉ text := by
  induction text with
  | nil => simp [splitOnce]
  | cons c rest ih =>
      by_cases hSep : c = sep
      · simp [splitOnce, hSep]
      · have hOther : ¬sep = c := fun h => hSep h.symm
        simp [splitOnce, hSep, ih, hOther]

theorem splitOnce_eq_some
    {sep : Char}
    {text left right : List Char}
    (hSplit : splitOnce sep text = some (left, right)) :
    text = left ++ sep :: right ∧ sep ∉ left := by
  induction text generalizing left with
  | nil => cases hSplit
  | cons c rest ih =>
      unfold splitOnce at hSplit
      split at hSplit
      · rename_i hSep
        cases hSplit
        exact ⟨by rw [hSep]; rfl, by simp⟩
      · rename_i hSep
        obtain ⟨⟨left', right'⟩, hRest, hParts⟩ :=
          Option.map_eq_some_iff.mp hSplit
        cases hParts
        obtain ⟨hText, hLeft⟩ := ih hRest
        refine ⟨by rw [hText]; rfl, ?_⟩
        intro hMem
        cases hMem with
        | head => exact hSep rfl
        | tail _ hTail => exact hLeft hTail

theorem splitOnce_append
    {sep : Char}
    {left : List Char}
    (right : List Char)
    (hLeft : sep ∉ left) :
    splitOnce sep (left ++ sep :: right) =
      some (left, right) := by
  induction left with
  | nil => simp [splitOnce]
  | cons c rest ih =>
      have hC : ¬c = sep :=
        fun h => hLeft (h ▸ List.mem_cons_self)
      have hRest := ih (fun h => hLeft (List.mem_cons_of_mem c h))
      simp [splitOnce, hC, hRest]

/- The pieces of a text hold its characters. -/
theorem mem_of_mem_splitOn
    {sep c : Char}
    {text piece : List Char}
    (hPiece : piece ∈ text.splitOn sep)
    (hC : c ∈ piece) :
    c ∈ text := by
  induction text generalizing piece with
  | nil =>
      rw [List.splitOn_nil, List.mem_singleton] at hPiece
      rw [hPiece] at hC
      exact hC
  | cons d rest ih =>
      rw [List.splitOn_cons_eq_if_modifyHead] at hPiece
      split at hPiece
      · rcases List.mem_cons.mp hPiece with rfl | hTail
        · cases hC
        · exact List.mem_cons_of_mem d (ih hTail hC)
      · cases hSplit : rest.splitOn sep with
        | nil => exact absurd hSplit (List.splitOn_ne_nil sep rest)
        | cons head tail =>
            rw [hSplit] at hPiece ih
            rcases List.mem_cons.mp hPiece with rfl | hTail
            · rcases List.mem_cons.mp hC with rfl | hHead
              · exact List.mem_cons_self
              · exact List.mem_cons_of_mem d
                  (ih List.mem_cons_self hHead)
            · exact List.mem_cons_of_mem d
                (ih (List.mem_cons_of_mem head hTail) hC)

/- No piece holds the separator. -/
theorem not_mem_of_mem_splitOn
    {sep : Char}
    {text piece : List Char}
    (hPiece : piece ∈ text.splitOn sep) :
    sep ∉ piece := by
  induction text generalizing piece with
  | nil =>
      rw [List.splitOn_nil, List.mem_singleton] at hPiece
      simp [hPiece]
  | cons d rest ih =>
      rw [List.splitOn_cons_eq_if_modifyHead] at hPiece
      split at hPiece
      · rcases List.mem_cons.mp hPiece with rfl | hTail
        · simp
        · exact ih hTail
      · rename_i hSep
        cases hSplit : rest.splitOn sep with
        | nil => exact absurd hSplit (List.splitOn_ne_nil sep rest)
        | cons head tail =>
            rw [hSplit] at hPiece ih
            rcases List.mem_cons.mp hPiece with rfl | hTail
            · intro hMem
              rcases List.mem_cons.mp hMem with rfl | hHead
              · simp at hSep
              · exact ih List.mem_cons_self hHead
            · exact ih (List.mem_cons_of_mem head hTail)

@[simp] theorem utf8Len_append
    (xs ys : List Char) :
    utf8Len (xs ++ ys) = utf8Len xs + utf8Len ys := by
  simp [utf8Len]

@[simp] theorem utf8Len_cons
    (c : Char)
    (rest : List Char) :
    utf8Len (c :: rest) = c.utf8Size + utf8Len rest := by
  simp [utf8Len]

theorem eq_nil_of_utf8Len
    {text : List Char}
    (hLen : utf8Len text = 0) :
    text = [] := by
  cases text with
  | nil => rfl
  | cons c rest =>
      have hPos := c.utf8Size_pos
      rw [utf8Len_cons] at hLen
      omega

end Text

end SentinelCommand
