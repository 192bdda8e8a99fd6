import SentinelCommand.PyInt.CoercionRules

/-
  Which texts `str_as_int` accepts, and with which value: the
  strict attempt and the cleaned one agree with each other,
  and only the size of an integer beyond `i64` stops either.

  Correctness is proven by:
    * `Coercion.strAsInt_eq_ok_iff`
    * `Coercion.strAsInt_eq_small_iff`
    * `Coercion.accepts_of_written`
-/

--------------------
-- What the Length Shows
--------------------

namespace SentinelCommand

namespace Coercion

open Text PyInt Numeral

/- A part of a text that is as long is the whole of it. -/
theorem utf8Len_le_of_sublist
    {xs ys : List Char}
    (hSub : xs.Sublist ys) :
    utf8Len xs ≤ utf8Len ys ∧
      (utf8Len xs = utf8Len ys → xs = ys) := by
  induction hSub with
  | slnil => exact ⟨le_rfl, fun _ => rfl⟩
  | cons c _ ih =>
      have hPos := c.utf8Size_pos
      rw [utf8Len_cons]
      exact ⟨by omega, fun h => by omega⟩
  | cons_cons c _ ih =>
      rw [utf8Len_cons, utf8Len_cons]
      refine ⟨by omega, fun h => ?_⟩
      rw [ih.2 (by omega)]

theorem trim_sublist (text : List Char) :
    (trim text).Sublist text := by
  obtain ⟨left, right, -, -, hText⟩ := exists_padding text
  have hSub :
      (trim text).Sublist (left ++ trim text ++ right) :=
    (List.sublist_append_right _ _).trans
      (List.sublist_append_left _ _)
  rwa [← hText] at hSub

theorem stripPlus_sublist
    {text s : List Char}
    (hPlus : stripPlus text = some s) :
    s.Sublist text := by
  unfold stripPlus at hPlus
  split at hPlus
  · split at hPlus
    · cases hPlus
    · cases hPlus
      exact List.sublist_cons_self _ _
  · cases hPlus
    exact List.Sublist.refl _

theorem stripMinus_eq
    {s body : List Char}
    {negative : Bool}
    (hMinus : stripMinus s = some (negative, body)) :
    s = minus negative ++ body := by
  unfold stripMinus at hMinus
  split at hMinus
  · split at hMinus
    · cases hMinus
    · cases hMinus
      rfl
  · cases hMinus
    rfl

theorem stripLeadingZeros_sublist
    {text kept : List Char}
    (hKept : stripLeadingZeros text = some kept) :
    kept.Sublist text := by
  rcases (stripLeadingZeros_eq_some_iff text kept).mp hKept with
    ⟨c, rest, rfl, rfl, -⟩ | ⟨zeros, rest, rfl, -, hRemains⟩
  · exact List.Sublist.refl _
  · have hLast :
        [zeros.getLastD '0'].Sublist ('0' :: zeros) :=
      List.singleton_sublist.mpr List.getLastD_mem_cons
    cases hRemains with
    | done => rwa [List.append_nil]
    | digit _ => exact List.sublist_append_right _ _
    | dash => exact List.sublist_append_right _ _
    | point => exact hLast.append (List.Sublist.refl _)

theorem cutFraction_sublist (s : List Char) :
    (cutFraction s).Sublist s := by
  obtain ⟨fraction, -, hSplit⟩ := exists_fraction s
  have hSub : (cutFraction s).Sublist (cutFraction s ++ fraction) :=
    List.sublist_append_left _ _
  rwa [← hSplit] at hSub

theorem ungrouped_sublist (s : List Char) :
    (ungrouped s).Sublist s := by
  unfold ungrouped stripUnderscores
  split
  · exact List.Sublist.refl _
  · exact List.filter_sublist

/- The passes one by one, and what they leave of the text. -/
theorem cleaned_eq_some_iff
    (text c : List Char) :
    cleaned text = some c ↔
      ∃ s negative body kept,
        stripPlus text = some s ∧
          stripMinus s = some (negative, body) ∧
          stripLeadingZeros body = some kept ∧
          c = minus negative ++ ungrouped (cutFraction kept) := by
  unfold cleaned
  simp only [Option.bind_eq_bind, Option.bind_eq_some_iff]
  constructor
  · rintro ⟨s, hPlus, ⟨negative, body⟩, hMinus, kept, hKept, hC⟩
    exact ⟨s, negative, body, kept, hPlus, hMinus, hKept,
      (Option.some.inj hC).symm⟩
  · rintro ⟨s, negative, body, kept, hPlus, hMinus, hKept, rfl⟩
    exact ⟨s, hPlus, (negative, body), hMinus, kept, hKept, rfl⟩

theorem cut_sublist
    {text s body kept : List Char}
    {negative : Bool}
    (hPlus : stripPlus text = some s)
    (hMinus : stripMinus s = some (negative, body))
    (hKept : stripLeadingZeros body = some kept) :
    (minus negative ++ cutFraction kept).Sublist text := by
  have hBody : (minus negative ++ cutFraction kept).Sublist s := by
    rw [stripMinus_eq hMinus]
    exact (List.Sublist.refl _).append
      ((cutFraction_sublist kept).trans
        (stripLeadingZeros_sublist hKept))
  exact hBody.trans (stripPlus_sublist hPlus)

theorem length_cleaned_le
    {text c : List Char}
    (hCleaned : cleaned text = some c) :
    c.length ≤ text.length := by
  obtain ⟨s, negative, body, kept, hPlus, hMinus, hKept, rfl⟩ :=
    (cleaned_eq_some_iff text c).mp hCleaned
  have hCut := (cut_sublist hPlus hMinus hKept).length_le
  have hUngrouped :=
    (ungrouped_sublist (cutFraction kept)).length_le
  rw [List.length_append] at hCut ⊢
  omega

/- What is refused for nothing to clean was read before. -/
theorem cleanIntStr_of_cleaned
    {original c : List Char}
    (hCleaned : cleaned (trim original) = some c) :
    cleanIntStr original = some c ∨ c = original := by
  obtain ⟨s, negative, body, kept, hPlus, hMinus, hKept, rfl⟩ :=
    (cleaned_eq_some_iff _ c).mp hCleaned
  unfold cleanIntStr ungrouped
  simp only [Option.bind_eq_bind, hPlus, hMinus, hKept,
    Option.bind_some]
  cases hStrip : stripUnderscores (cutFraction kept) with
  | some stripped => exact Or.inl rfl
  | none =>
      by_cases hLen :
          utf8Len original = utf8Len (cutFraction kept)
      · right
        have hSub :=
          (cut_sublist hPlus hMinus hKept).trans
            (trim_sublist original)
        obtain ⟨hLe, hSame⟩ := utf8Len_le_of_sublist hSub
        refine hSame ?_
        rw [utf8Len_append] at hLe ⊢
        omega
      · left
        dsimp only
        rw [if_neg hLen]
        rfl

theorem cleaned_of_cleanIntStr
    {original c : List Char}
    (hClean : cleanIntStr original = some c) :
    cleaned (trim original) = some c := by
  unfold cleanIntStr at hClean
  simp only [Option.bind_eq_bind, Option.bind_eq_some_iff]
    at hClean
  obtain ⟨s, hPlus, ⟨negative, body⟩, hMinus, kept, hKept,
    hSome⟩ := hClean
  refine (cleaned_eq_some_iff _ c).mpr
    ⟨s, negative, body, kept, hPlus, hMinus, hKept, ?_⟩
  unfold ungrouped
  cases hStrip : stripUnderscores (cutFraction kept) with
  | some stripped =>
      rw [hStrip] at hSome
      exact (Option.some.inj hSome).symm
  | none =>
      rw [hStrip] at hSome
      dsimp only at hSome
      split at hSome
      · cases hSome
      · exact (Option.some.inj hSome).symm

--------------------
-- Both Attempts
--------------------

open Text CooldownArithmetic PyInt Numeral

/- A prefix without blanks is left when a text is trimmed. -/
theorem prefix_trim
    {front text : List Char}
    (hFront : ∀ c ∈ front, isWhitespace c = false)
    (hPrefix : front <+: text) :
    front <+: trim text := by
  obtain ⟨left, right, hLeft, hRight, hText⟩ :=
    exists_padding text
  cases left with
  | nil =>
      rw [hText, List.nil_append] at hPrefix
      rcases List.prefix_or_prefix_of_prefix hPrefix
        (List.prefix_append (trim text) right) with h | h
      · exact h
      · -- What the front has beyond the text is blank.
        obtain ⟨more, hMore⟩ := h
        cases more with
        | nil =>
            refine ⟨[], ?_⟩
            rw [List.append_nil, ← hMore, List.append_nil]
        | cons c more =>
            rw [← hMore, List.prefix_append_right_inj] at hPrefix
            have hC := hRight c
              (hPrefix.subset List.mem_cons_self)
            have hC' := hFront c (by rw [← hMore]; simp)
            rw [hC] at hC'
            cases hC'
  | cons c left =>
      have hC := hLeft c List.mem_cons_self
      cases front with
      | nil => exact List.nil_prefix
      | cons d front =>
          rw [hText] at hPrefix
          have hSame : d = c := (List.cons_prefix_cons.mp hPrefix).1
          have hD := hFront d List.mem_cons_self
          rw [hSame, hC] at hD
          cases hD

/- What is too long starts with a sign and many digits. -/
theorem digits_of_outOfRange
    {text : List Char}
    (hRange : jiterInt text = .error .outOfRange) :
    ∃ negative c run,
      minus negative ++ c :: run <+: text ∧
        isNonzero c = true ∧ IsNumeral (c :: run) ∧
        maxIntChars < (minus negative ++ c :: run).length := by
  have hDigits :
      ∀ negative digits, text = minus negative ++ digits →
        jiterDigits negative (minus negative).length text digits =
          .error .outOfRange →
        ∃ c run,
          minus negative ++ c :: run <+: text ∧
            isNonzero c = true ∧ IsNumeral (c :: run) ∧
            maxIntChars <
              (minus negative ++ c :: run).length := by
    intro negative digits hText hRange
    unfold jiterDigits at hRange
    split at hRange
    · cases hRange
    · rename_i c rest
      split at hRange
      · split at hRange <;> cases hRange
      · split at hRange
        · rename_i hLead
          dsimp only at hRange
          split at hRange
          · rename_i hSize
            have hDigit := ((isNonzero_iff c).mp hLead).1
            have hRun :
                (c :: rest).takeWhile Char.isDigit =
                  c :: rest.takeWhile Char.isDigit :=
              List.takeWhile_cons_of_pos hDigit
            refine ⟨c, rest.takeWhile Char.isDigit, ?_, hLead, ?_,
              ?_⟩
            · rw [hText, List.prefix_append_right_inj, ← hRun]
              exact List.takeWhile_prefix _
            · rw [← hRun]
              exact List.all_eq_true.mp List.all_takeWhile
            · rw [List.length_append, ← hRun]
              exact hSize.2
          · split at hRange
            · cases hRange
            · split at hRange <;> cases hRange
        · cases hRange
  by_cases hSign : ∃ rest, text = '-' :: rest
  · obtain ⟨rest, rfl⟩ := hSign
    exact ⟨true, hDigits true rest rfl hRange⟩
  · rw [jiterInt_of_no_minus (fun rest h => hSign ⟨rest, h⟩)]
      at hRange
    exact ⟨false, hDigits false text rfl hRange⟩

/- The same, of the trimmed text. -/
theorem trimmed_of_outOfRange
    {text : List Char}
    (hRange : jiterInt text = .error .outOfRange) :
    ∃ negative c run,
      minus negative ++ c :: run <+: trim text ∧
        isNonzero c = true ∧ IsNumeral (c :: run) ∧
        maxIntChars < (minus negative ++ c :: run).length := by
  obtain ⟨negative, c, run, hPrefix, hLead, hRun, hLong⟩ :=
    digits_of_outOfRange hRange
  refine ⟨negative, c, run, prefix_trim ?_ hPrefix, hLead, hRun,
    hLong⟩
  intro d hD
  rcases List.mem_append.mp hD with hSign | hDigit
  · cases negative with
    | false => cases hSign
    | true =>
        rw [List.mem_singleton.mp hSign]
        decide
  · exact isWhitespace_of_isDigit (hRun d hDigit)

/- The size is only checked past the limit of characters. -/
theorem jiterInt_ne_outOfRange
    {text : List Char}
    (hLen : (trim text).length ≤ maxIntChars) :
    jiterInt text ≠ .error .outOfRange := by
  intro hRange
  obtain ⟨negative, c, run, hPrefix, -, -, hLong⟩ :=
    trimmed_of_outOfRange hRange
  have hLe := hPrefix.length_le
  omega

theorem length_trim_cleaned_le
    {s c : List Char}
    (hLen : (trim s).length ≤ maxIntChars)
    (hCleaned : cleaned (trim s) = some c) :
    (trim c).length ≤ maxIntChars :=
  calc (trim c).length
      ≤ c.length := (trim_sublist c).length_le
    _ ≤ (trim s).length := length_cleaned_le hCleaned
    _ ≤ maxIntChars := hLen

/- What is read is accepted, whatever its length. -/
theorem accepts_of_strAsInt
    {s : List Char}
    {v : PyInt}
    (hRead : strAsInt s = .ok v) :
    ∃ n, Accepts (trim s) n ∧ v = ofInteger n := by
  have hInverted :
      ∀ {text w}, jiterInt text = .ok w →
        ∃ n, StrictInt text n ∧ w = ofInteger n := by
    intro text w hText
    exact (jiterInt_eq_ok_iff text w (by simp [hText])).mp hText
  unfold strAsInt at hRead
  cases hFirst : jiterInt s with
  | ok first =>
      rw [hFirst] at hRead
      cases hRead
      obtain ⟨n, hStrict, hV⟩ := hInverted hFirst
      obtain ⟨hTrim, hAccepts⟩ := accepts_of_strictInt hStrict
      rw [hTrim]
      exact ⟨n, hAccepts, hV⟩
  | error err =>
      rw [hFirst] at hRead
      cases err with
      | outOfRange => cases hRead
      | other =>
          dsimp only at hRead
          cases hClean : cleanIntStr s with
          | none =>
              rw [hClean] at hRead
              cases hRead
          | some c =>
              rw [hClean] at hRead
              dsimp only at hRead
              cases hSecond : jiterInt c with
              | ok w =>
                  rw [hSecond] at hRead
                  cases hRead
                  obtain ⟨n, hStrict, hV⟩ := hInverted hSecond
                  exact ⟨n, (cleaned_iff _ n).mp
                    ⟨c, cleaned_of_cleanIntStr hClean, hStrict⟩,
                    hV⟩
              | error _ =>
                  rw [hSecond] at hRead
                  cases hRead

/- What is accepted is read unless its size stops it. -/
theorem strAsInt_of_accepts
    {s : List Char}
    {n : Int}
    (hSize : jiterInt s ≠ .error .outOfRange)
    (hSizeC :
      ∀ c, cleaned (trim s) = some c →
        jiterInt c ≠ .error .outOfRange)
    (hAccepts : Accepts (trim s) n) :
    strAsInt s = .ok (ofInteger n) := by
  obtain ⟨c, hCleaned, hStrict⟩ := (cleaned_iff _ n).mpr hAccepts
  have hSecond :=
    (jiterInt_eq_ok_iff c _ (hSizeC c hCleaned)).mpr
      ⟨n, hStrict, rfl⟩
  unfold strAsInt
  cases hFirst : jiterInt s with
  | ok first =>
      obtain ⟨m, hM, rfl⟩ :=
        (jiterInt_eq_ok_iff s first hSize).mp hFirst
      obtain ⟨hTrim, hAccepts'⟩ := accepts_of_strictInt hM
      rw [hTrim] at hAccepts
      rw [accepts_unique hAccepts hAccepts']
  | error err =>
      cases err with
      | outOfRange => exact absurd hFirst hSize
      | other =>
          dsimp only
          rcases cleanIntStr_of_cleaned hCleaned with hClean | rfl
          · rw [hClean]
            dsimp only
            rw [hSecond]
          · rw [hFirst] at hSecond
            cases hSecond

/-
  A text of no more than 4,300 characters between its blanks
  is read as an integer exactly when it is accepted as one.
-/
theorem strAsInt_eq_ok_iff
    (s : List Char)
    (v : PyInt)
    (hLen : (trim s).length ≤ maxIntChars) :
    strAsInt s = .ok v ↔
      ∃ n, Accepts (trim s) n ∧ v = ofInteger n := by
  constructor
  · exact accepts_of_strAsInt
  · rintro ⟨n, hAccepts, rfl⟩
    exact strAsInt_of_accepts (jiterInt_ne_outOfRange hLen)
      (fun c hCleaned =>
        jiterInt_ne_outOfRange
          (length_trim_cleaned_le hLen hCleaned))
      hAccepts

/- Zeros before the digits, a plus sign and a fraction. -/
theorem strAsInt_eq_ok_iff_padded :
    strAsInt " +0_17.0 ".toList = .ok (.small 17) := by
  refine (strAsInt_eq_ok_iff " +0_17.0 ".toList _
    (by decide)).mpr ⟨17, ?_, by decide⟩
  have hBody : Grouped "17".toList "17".toList :=
    grouped_of_isNumeral (isNumeral_of_all rfl) (by decide)
  exact Accepts.number Sign.plus
    (Magnitude.padded ⟨['_'], rfl, by simp⟩ hBody
      (by unfold Trimmed; decide))
    (Or.inr ⟨['0'], by decide, by simp, rfl⟩)

--------------------
-- Written Integers
--------------------

open CooldownArithmetic PyInt Numeral

theorem magnitude_pad
    {zeros text : List Char}
    {m : Nat}
    (hRun : ZeroRun zeros)
    (hMagnitude : Magnitude text m) :
    Magnitude (zeros ++ text) m := by
  obtain ⟨rest, rfl, hRest⟩ := hRun
  have hJoin :
      ∀ more, ZeroRun more → ZeroRun ('0' :: rest ++ more) := by
    rintro more ⟨tail, rfl, hTail⟩
    refine ⟨rest ++ '0' :: tail, rfl, ?_⟩
    intro c hC
    rcases List.mem_append.mp hC with h | h
    · exact hRest c h
    · rcases List.mem_cons.mp h with rfl | h
      · exact Or.inl rfl
      · exact hTail c h
  cases hMagnitude with
  | plain hGrouped hTrimmed =>
      exact Magnitude.padded ⟨rest, rfl, hRest⟩ hGrouped hTrimmed
  | padded hMore hGrouped hTrimmed =>
      rw [← List.append_assoc]
      exact Magnitude.padded (hJoin _ hMore) hGrouped hTrimmed
  | zero hMore hLast =>
      refine Magnitude.zero (hJoin _ hMore) ?_
      rw [List.getLast?_append, hLast]
      rfl

/- Grouped digits may start with zeros. -/
theorem magnitude_of_grouped
    {body digits : List Char}
    (hGrouped : Grouped body digits) :
    Magnitude body (value digits) := by
  have hTrimmed :
      ∀ (c : Char) (rest : List Char), c ≠ '0' →
        Trimmed (c :: rest) := by
    intro c rest hC hHead
    exact hC (Option.some.inj hHead)
  induction hGrouped with
  | last hDigit =>
      rename_i c
      by_cases hZero : c = '0'
      · subst hZero
        exact Magnitude.zero ⟨[], rfl, by simp⟩ rfl
      · exact Magnitude.plain (Grouped.last hDigit)
          (hTrimmed c [] hZero)
  | digit hDigit hRest ih =>
      rename_i c rest digits
      by_cases hZero : c = '0'
      · subst hZero
        have hValue : value ('0' :: digits) = value digits := by
          simp [value, digit]
        rw [hValue]
        exact magnitude_pad ⟨[], rfl, by simp⟩ ih
      · exact Magnitude.plain (Grouped.digit hDigit hRest)
          (hTrimmed c digits hZero)
  | group hDigit hRest ih =>
      rename_i c rest digits
      by_cases hZero : c = '0'
      · subst hZero
        have hValue : value ('0' :: digits) = value digits := by
          simp [value, digit]
        rw [hValue]
        exact magnitude_pad ⟨['_'], rfl, by simp⟩ ih
      · exact Magnitude.plain (Grouped.group hDigit hRest)
          (hTrimmed c digits hZero)

/- A written integer is accepted, with its value. -/
theorem accepts_of_written
    {text : List Char}
    {n : Int}
    (hWritten : Written text n) :
    Accepts text n := by
  obtain ⟨sign, negative, body, digits, fraction, rfl, hSign,
    hGrouped, hFraction, rfl⟩ := hWritten
  exact Accepts.number hSign (magnitude_of_grouped hGrouped)
    hFraction

/- After the sign there is no minus sign. -/
theorem sign_of_written
    {text : List Char}
    {n : Int}
    (hWritten : Written text n)
    (hMinus : '-' ∈ text) :
    text.head? = some '-' := by
  obtain ⟨sign, negative, body, digits, fraction, rfl, hSign,
    hGrouped, hFraction, -⟩ := hWritten
  have hBody : '-' ∉ body := by
    intro hMem
    have hDigit :=
      hGrouped.isNumeral.1 '-' (by
        rw [hGrouped.digits_eq]
        exact List.mem_filter.mpr ⟨hMem, rfl⟩)
    cases hDigit
  have hTail : '-' ∉ fraction := by
    rcases hFraction with rfl | ⟨zeros, -, hZeros, rfl⟩
    · simp
    · intro hMem
      rcases List.mem_cons.mp hMem with h | h
      · cases h
      · cases hZeros '-' h
  rcases List.mem_append.mp hMinus with h | h
  · rcases List.mem_append.mp h with hMem | hMem
    · cases hSign with
      | none => cases hMem
      | plus => cases List.mem_singleton.mp hMem
      | minus => rfl
    · exact absurd hMem hBody
  · exact absurd h hTail

/- A minus sign behind zeros is read as the sign. -/
theorem strAsInt_dashed :
    strAsInt "0-5".toList = .ok (.small (-5)) ∧
      ∀ n, ¬Written (Text.trim "0-5".toList) n := by
  refine ⟨by decide, fun n hWritten => ?_⟩
  have hHead := sign_of_written hWritten (by decide)
  exact absurd hHead (by decide)

--------------------
-- Integers of 64 Bits
--------------------

open Machine Text CooldownArithmetic PyInt Numeral

/- An integer of twenty digits is beyond 64 bits. -/
theorem out_of_long
    {negative : Bool}
    {c : Char}
    {rest : List Char}
    (hNumeral : IsNumeral (c :: rest))
    (hTrimmed : Trimmed (c :: rest))
    (hLong : 19 ≤ rest.length) :
    ¬InI64 (signed negative (value (c :: rest))) := by
  have hLow := pow_le_value hNumeral hTrimmed
  have hPow : 10 ^ 19 ≤ 10 ^ rest.length :=
    Nat.pow_le_pow_right (by decide) hLong
  unfold InI64 i64Min i64Max signed
  split <;> omega

theorem length_minus_le (negative : Bool) :
    (minus negative).length ≤ 1 := by
  cases negative <;> decide

theorem signed_of_minus (negative : Bool) :
    Sign (minus negative) negative := by
  cases negative with
  | false => exact Sign.none
  | true => exact Sign.minus

/- Many digits in front are in front of the body. -/
theorem prefix_after_sign
    {sign body run : List Char}
    {c : Char}
    {negative negative' : Bool}
    (hSign : Sign sign negative)
    (hHead : ∃ d rest, body = d :: rest ∧ d.isDigit = true)
    (hLead : isNonzero c = true)
    (hPrefix : minus negative' ++ c :: run <+: sign ++ body) :
    c :: run <+: body := by
  have hDigit := ((isNonzero_iff c).mp hLead).1
  cases negative' with
  | false =>
      cases hSign with
      | none => exact hPrefix
      | plus =>
          have hC := (List.cons_prefix_cons.mp hPrefix).1
          subst hC
          cases hDigit
      | minus =>
          have hC := (List.cons_prefix_cons.mp hPrefix).1
          subst hC
          cases hDigit
  | true =>
      cases hSign with
      | none =>
          obtain ⟨d, rest, rfl, hD⟩ := hHead
          have hC := (List.cons_prefix_cons.mp hPrefix).1
          subst hC
          cases hD
      | plus =>
          have hC := (List.cons_prefix_cons.mp hPrefix).1
          cases hC
      | minus => exact (List.cons_prefix_cons.mp hPrefix).2

/- Digits that start with many digits are many digits. -/
theorem out_of_prefix
    {digits run : List Char}
    {c : Char}
    {negative negative' : Bool}
    (hNumeral : IsNumeral digits)
    (hLead : isNonzero c = true)
    (hPrefix : c :: run <+: digits)
    (hLong :
      maxIntChars < (minus negative' ++ c :: run).length) :
    ¬InI64 (signed negative (value digits)) := by
  obtain ⟨more, rfl⟩ := hPrefix
  have hZero := ((isNonzero_iff c).mp hLead).2
  have hTrimmed : Trimmed (c :: (run ++ more)) :=
    fun h => hZero (Option.some.inj h)
  refine out_of_long hNumeral hTrimmed ?_
  have hSign := length_minus_le negative'
  rw [List.length_append, List.length_cons] at hLong
  change 19 ≤ (run ++ more).length
  rw [List.length_append]
  unfold maxIntChars at hLong
  omega

/- A strict integer too long to read is beyond 64 bits. -/
theorem out_of_strictInt
    {text : List Char}
    {n : Int}
    (hStrict : StrictInt text n)
    (hRange : jiterInt text = .error .outOfRange) :
    ¬InI64 n := by
  obtain ⟨negative, digits, rfl, hNumeral, hNe, -, rfl⟩ := hStrict
  obtain ⟨negative', c, run, hPrefix, hLead, -, hLong⟩ :=
    digits_of_outOfRange hRange
  obtain ⟨d, rest, rfl⟩ := List.exists_cons_of_ne_nil hNe
  have hHead :
      ∃ e tail, d :: rest = e :: tail ∧ e.isDigit = true :=
    ⟨d, rest, rfl, hNumeral d List.mem_cons_self⟩
  exact out_of_prefix hNumeral hLead
    (prefix_after_sign (signed_of_minus negative) hHead hLead
      hPrefix) hLong

/- Digits in front of a fraction are digits of the body. -/
theorem prefix_of_fraction
    {front body fraction : List Char}
    (hFront : IsNumeral front)
    (hFraction : Fraction fraction)
    (hPrefix : front <+: body ++ fraction) :
    front <+: body := by
  rcases List.prefix_or_prefix_of_prefix hPrefix
    (List.prefix_append body fraction) with h | ⟨more, rfl⟩
  · exact h
  · rw [List.prefix_append_right_inj] at hPrefix
    cases more with
    | nil =>
        refine ⟨[], ?_⟩
        rw [List.append_nil, List.append_nil]
    | cons c more =>
        have hC := hFront c (by simp)
        rcases hFraction with rfl | ⟨zeros, -, -, rfl⟩
        · cases List.prefix_nil.mp hPrefix
        · have hPoint := (List.cons_prefix_cons.mp hPrefix).1
          subst hPoint
          cases hC

/- So is an accepted text that starts with that many digits. -/
theorem out_of_accepts
    {text : List Char}
    {n : Int}
    (hAccepts : Accepts (trim text) n)
    (hRange : jiterInt text = .error .outOfRange) :
    ¬InI64 n := by
  obtain ⟨sign, body, negative, inner, m, hTrim, hSign, hBody, -,
    rfl⟩ := (accepts_iff _ n).mp hAccepts
  obtain ⟨negative', c, run, hPrefix, hLead, hRun, hLong⟩ :=
    trimmed_of_outOfRange hRange
  rw [hTrim] at hPrefix
  have hFront :=
    prefix_after_sign hSign (head_of_body hBody) hLead hPrefix
  have hZero := ((isNonzero_iff c).mp hLead).2
  cases hBody with
  | number hMagnitude hFraction =>
      cases hMagnitude with
      | plain hGrouped hTrimmed =>
          have hBody :=
            (prefix_of_fraction hRun hFraction hFront).filter
              (· ≠ '_')
          rw [← hGrouped.digits_eq] at hBody
          have hSame :
              (c :: run).filter (· ≠ '_') = c :: run := by
            rw [List.filter_eq_self]
            intro d hD
            refine decide_eq_true ?_
            rintro rfl
            have hDigit := hRun '_' hD
            cases hDigit
          rw [hSame] at hBody
          exact out_of_prefix hGrouped.isNumeral.1 hLead hBody
            hLong
      | padded hZeros _ _ =>
          obtain ⟨rest, rfl, -⟩ := hZeros
          exact absurd (List.cons_prefix_cons.mp hFront).1 hZero
      | zero hZeros _ =>
          obtain ⟨rest, rfl, -⟩ := hZeros
          exact absurd (List.cons_prefix_cons.mp hFront).1 hZero
  | dashed hZeros _ _ _ _ =>
      obtain ⟨rest, rfl, -⟩ := hZeros
      exact absurd (List.cons_prefix_cons.mp hFront).1 hZero

/- An integer that `i64` holds is read from every spelling. -/
theorem strAsInt_eq_small_iff
    (s : List Char)
    {n : Int}
    (hIn : InI64 n) :
    strAsInt s = .ok (.small n) ↔ Accepts (trim s) n := by
  constructor
  · intro hRead
    obtain ⟨m, hAccepts, hV⟩ := accepts_of_strAsInt hRead
    rw [((ofInteger_eq_small_iff m n).mp hV.symm).1] at hAccepts
    exact hAccepts
  · intro hAccepts
    rw [← ofInteger_of_in hIn]
    refine strAsInt_of_accepts ?_ ?_ hAccepts
    · exact fun hRange => out_of_accepts hAccepts hRange hIn
    · intro c hCleaned hRange
      obtain ⟨c', hCleaned', hStrict⟩ :=
        (cleaned_iff _ n).mpr hAccepts
      rw [hCleaned, Option.some_inj] at hCleaned'
      subst hCleaned'
      exact out_of_strictInt hStrict hRange hIn

end Coercion

end SentinelCommand
