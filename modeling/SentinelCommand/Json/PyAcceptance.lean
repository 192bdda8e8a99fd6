import SentinelCommand.Json.PyNumber

/-
  What the decoder of `pyjson.rs` accepts: the documents of the
  JSON grammar with three more literals and 900 levels of
  containers.

  A scanner of items makes a scanner of containers; the scanner
  of values is reached by induction on the depth that is left,
  which is the depth of the grammar.

  Key definitions include:
    * `PyJson.Fine`, `PyJson.Correct`
    * `PyJson.pythonWords`

  Correctness is proven by:
    * `PyJson.correct_container`
    * `PyJson.pythonDecodeError_exact`
-/

--------------------
-- Correct Scanners
--------------------

namespace SentinelCommand

namespace PyJson

open JsonGrammar

/- A result in bounds, with what a found end is the end of. -/
inductive Fine
    (s : List Char)
    (rule : List Char → List Char → Prop)
    (idx : Nat) : Scan → Prop where
  | found {j : Nat} :
      idx < j → j ≤ s.length → rule (s.drop idx) (s.drop j) →
        Fine s rule idx (.ok j)
  | value {pos : Nat} :
      pos ≤ s.length → Fine s rule idx (.error (.stop (.value pos)))
  | msg {text : String} {pos : Nat} :
      pos ≤ s.length → Fine s rule idx (.error (stopAt text pos))
  | tooDeep : Fine s rule idx (.error (.stop .tooDeep))

/- A found end, of a rest that the rule derives. -/
def Found (s rest : List Char) (result : Scan) : Prop :=
  ∃ j ≤ s.length, result = .ok j ∧ s.drop j = rest

/-
  A scanner finds what a rule derives wherever it is derived,
  and nothing else.
-/
structure Correct
    (s : List Char)
    (rule : List Char → List Char → Prop)
    (scan : Nat → Scan) : Prop where
  fine : ∀ idx ≤ s.length, Fine s rule idx (scan idx)
  complete :
    ∀ idx ≤ s.length, ∀ rest,
      rule (s.drop idx) rest → Follows rest →
        Found s rest (scan idx)

/- A scan from further on, for what is derived from here. -/
theorem Fine.shift
    {s : List Char}
    {rule whole : List Char → List Char → Prop}
    {idx first : Nat}
    {result : Scan}
    (hFine : Fine s rule idx result)
    (hFirst : first ≤ idx)
    (hRule :
      ∀ rest, rule (s.drop idx) rest → whole (s.drop first) rest) :
    Fine s whole first result := by
  cases hFine with
  | found hLess hLength hFound =>
      exact .found (Nat.lt_of_le_of_lt hFirst hLess) hLength
        (hRule _ hFound)
  | value hPos => exact .value hPos
  | msg hPos => exact .msg hPos
  | tooDeep => exact .tooDeep

/- The sign behind white space that is passed. -/
theorem at_skipWs
    {s rest : List Char}
    {idx : Nat}
    {c : Char}
    (hBlank : Blank (s.drop idx) (c :: rest))
    (hC : isWs c = false) :
    s[skipWs s idx]? = some c ∧
      s.drop (skipWs s idx + 1) = rest ∧
      skipWs s idx < s.length := by
  apply at_of_drop
  rw [drop_skipWs]
  apply hBlank.eq_dropWhile
  intro d hD
  cases hD
  exact hC

theorem fine_member
    {s : List Char}
    {rule : List Char → List Char → Prop}
    {scan : Nat → Scan}
    (hScan : ∀ idx ≤ s.length, Fine s rule idx (scan idx))
    {idx : Nat}
    (hIdx : idx ≤ s.length) :
    Fine s (Member rule) idx (member scan s idx) := by
  rw [member]
  by_cases hMark : s[idx]? = some mark
  · obtain ⟨hDrop, hBound⟩ := drop_of_at hMark
    rw [if_neg (fun h => h hMark)]
    rcases scanString_cases hBound with
      ⟨j, hOk, hLess, hJ, hEnd⟩ | ⟨text, pos, hError, hPos, _⟩
    · have hChars := (hEnd _).mpr rfl
      have hNext := le_skipWs s j
      simp only [hOk, bind, Except.bind]
      by_cases hColon : s[skipWs s j]? = some ':'
      · obtain ⟨hDropColon, hBoundColon⟩ := drop_of_at hColon
        have hAfter := le_skipWs s (skipWs s j + 1)
        rw [if_neg (fun h => h hColon)]
        apply (hScan _ (skipWs_next_le hBoundColon)).shift (by omega)
        intro rest hRest
        rw [hDrop]
        have hBlank := blank_skipWs s j
        rw [hDropColon] at hBlank
        exact .pair hChars hBlank
          (blank_skipWs s (skipWs s j + 1)) hRest
      · rw [if_pos hColon]
        exact .msg (skipWs_le hJ)
    · simp only [hError, bind, Except.bind]
      exact .msg hPos
  · rw [if_pos hMark]
    exact .msg hIdx

theorem correct_member
    {s : List Char}
    {rule : List Char → List Char → Prop}
    {scan : Nat → Scan}
    (hScan : Correct s rule scan)
    (hStarts : ∀ text rest, rule text rest → Starts text) :
    Correct s (Member rule) (member scan s) := by
  refine ⟨fun idx hIdx => fine_member hScan.fine hIdx, ?_⟩
  intro idx hIdx rest hMember hFollows
  generalize hText : s.drop idx = text at hMember
  cases hMember with
  | pair hChars hColon hBlank hRule =>
      obtain ⟨hMark, hTail, hBound⟩ := at_of_drop hText
      rw [← hTail] at hChars
      rw [member, if_neg (fun h => h hMark)]
      rcases scanString_cases hBound with
        ⟨j, hOk, _, _, hEnd⟩ | ⟨_, _, _, _, hNone⟩
      · rw [(hEnd _).mp hChars] at hColon
        obtain ⟨hAt, hAfter, hBoundColon⟩ :=
          at_skipWs hColon rfl
        simp only [hOk, bind, Except.bind]
        rw [if_neg (fun h => h hAt)]
        apply hScan.complete _ (skipWs_next_le hBoundColon) _ _ hFollows
        rw [drop_skipWs, hAfter,
          (hStarts _ _ hRule).dropWhile hBlank]
        exact hRule
      · exact absurd hChars (hNone _)

--------------------
-- Containers
--------------------

/- The closing sign of a container. -/
def Closing (close : Char) : Prop :=
  close = ']' ∨ close = closeBrace

theorem Closing.isWs
    {close : Char}
    (hClose : Closing close) :
    isWs close = false := by
  rcases hClose with h | h
  · rw [h]
    rfl
  · rw [h]
    rfl

/- The closing sign is passed. -/
def passed (idx : Nat) : Scan :=
  .ok (idx + 1)

theorem fine_itemLoop
    {s : List Char}
    {item : List Char → List Char → Prop}
    {scan : Nat → Scan}
    (close : Char)
    (hScan : ∀ idx ≤ s.length, Fine s item idx (scan idx))
    (fuel : Nat)
    {idx : Nat}
    (hIdx : idx ≤ s.length)
    (hFuel : s.length < fuel + idx) :
    Fine s (Sequence item close) idx
      (itemLoop scan close s fuel idx >>= passed) := by
  induction fuel generalizing idx with
  | zero => omega
  | succ fuel ih =>
      have hItem := hScan idx hIdx
      rw [itemLoop]
      generalize scan idx = result at hItem
      cases hItem with
      | value hPos => exact .value hPos
      | msg hPos => exact .msg hPos
      | tooDeep => exact .tooDeep
      | @found j hLess hJ hRule =>
          have hPassed := le_skipWs s j
          have hBlank := blank_skipWs s j
          simp only [bind, Except.bind]
          by_cases hClose : s[skipWs s j]? = some close
          · obtain ⟨hDrop, hBound⟩ := drop_of_at hClose
            rw [if_pos hClose]
            rw [hDrop] at hBlank
            exact .found (by omega) hBound
              (.last .none hRule hBlank)
          · rw [if_neg hClose]
            by_cases hComma : s[skipWs s j]? = some ','
            · obtain ⟨hDrop, hBound⟩ := drop_of_at hComma
              have hNext := le_skipWs s (skipWs s j + 1)
              rw [if_neg (fun h => h hComma)]
              rw [hDrop] at hBlank
              apply (ih (skipWs_next_le hBound) (by omega)).shift
                (by omega)
              intro rest hRest
              exact .more .none hRule hBlank
                (hRest.of_blank (blank_skipWs s _))
            · rw [if_pos hComma]
              exact .msg (skipWs_le hJ)

theorem fine_container
    {s : List Char}
    {item : List Char → List Char → Prop}
    {scan : Nat → Scan}
    (close : Char)
    (hScan : ∀ idx ≤ s.length, Fine s item idx (scan idx))
    {idx : Nat}
    (hIdx : idx ≤ s.length) :
    Fine s (Container item close) idx
      (container scan close s idx) := by
  have hPassed := le_skipWs s idx
  have hBlank := blank_skipWs s idx
  rw [container]
  by_cases hClose : s[skipWs s idx]? = some close
  · obtain ⟨hDrop, hBound⟩ := drop_of_at hClose
    rw [if_neg (fun h => h hClose)]
    rw [hDrop] at hBlank
    exact .found (by omega) hBound (.empty hBlank)
  · rw [if_pos hClose]
    apply (fine_itemLoop close hScan (s.length + 1)
      (skipWs_le hIdx) (by omega)).shift hPassed
    intro rest hRest
    exact .filled (hRest.of_blank hBlank)

/- Without white space before it, a sequence is read. -/
theorem found_itemLoop
    {s : List Char}
    {item : List Char → List Char → Prop}
    {scan : Nat → Scan}
    {close : Char}
    (hClose : Closing close)
    (hScan : Correct s item scan)
    (hStarts : ∀ text rest, item text rest → Starts text)
    (fuel : Nat)
    {idx : Nat}
    (hIdx : idx ≤ s.length)
    (hFuel : s.length < fuel + idx)
    {text rest : List Char}
    (hText : s.drop idx = text.dropWhile isWs)
    (hSequence : Sequence item close text rest) :
    Found s rest (itemLoop scan close s fuel idx >>= passed) := by
  induction fuel generalizing idx text with
  | zero => omega
  | succ fuel ih =>
      obtain ⟨middle, hItem, hNext⟩ := hSequence.first hStarts
      rw [← hText] at hItem
      rw [itemLoop]
      rcases hNext with hEnd | ⟨tail, hComma, hMore⟩
      · have hFollows : Follows (close :: rest) :=
          follows_of_sign (Or.inr (Or.inr hClose)) rest
        obtain ⟨j, _, hOk, hDrop⟩ :=
          hScan.complete idx hIdx middle hItem
            (hEnd.follows hFollows)
        rw [← hDrop] at hEnd
        obtain ⟨hAt, hRest, hBound⟩ := at_skipWs hEnd hClose.isWs
        simp only [hOk, bind, Except.bind]
        rw [if_pos hAt]
        exact ⟨_, hBound, rfl, hRest⟩
      · have hFollows : Follows (',' :: tail) :=
          follows_of_sign (Or.inl rfl) tail
        obtain ⟨j, _, hOk, hDrop⟩ :=
          hScan.complete idx hIdx middle hItem
            (hComma.follows hFollows)
        have hLess : idx < j := by
          have hFine := hScan.fine idx hIdx
          rw [hOk] at hFine
          cases hFine with
          | found hLess _ _ => exact hLess
        rw [← hDrop] at hComma
        obtain ⟨hAt, hRest, hBound⟩ := at_skipWs hComma rfl
        have hNot : s[skipWs s j]? ≠ some close := by
          rw [hAt]
          intro hSame
          have hSign := Option.some.inj hSame
          rcases hClose with h | h
          · rw [h] at hSign
            cases hSign
          · rw [h] at hSign
            cases hSign
        have hPassed := le_skipWs s j
        have hAfter := le_skipWs s (skipWs s j + 1)
        simp only [hOk, bind, Except.bind]
        rw [if_neg hNot, if_neg (fun h => h hAt)]
        apply ih (skipWs_next_le hBound) (by omega) _ hMore
        rw [drop_skipWs, hRest]

theorem correct_container
    {s : List Char}
    {item : List Char → List Char → Prop}
    {scan : Nat → Scan}
    {close : Char}
    (hClose : Closing close)
    (hScan : Correct s item scan)
    (hStarts : ∀ text rest, item text rest → Starts text) :
    Correct s (Container item close) (container scan close s) := by
  refine ⟨fun idx hIdx => fine_container close hScan.fine hIdx, ?_⟩
  intro idx hIdx rest hContainer _
  have hPassed := le_skipWs s idx
  rw [container]
  cases hContainer with
  | empty hEnd =>
      obtain ⟨hAt, hRest, hBound⟩ := at_skipWs hEnd hClose.isWs
      rw [if_neg (fun h => h hAt)]
      exact ⟨_, hBound, rfl, hRest⟩
  | filled hSequence =>
      obtain ⟨_, hItem, _⟩ := hSequence.first hStarts
      obtain ⟨c, tail, hText, _, hSquare, hCurly⟩ :=
        hStarts _ _ hItem
      have hHere := hText
      rw [← drop_skipWs] at hHere
      have hNot : s[skipWs s idx]? ≠ some close := by
        rw [(at_of_drop hHere).1]
        intro hSame
        rw [Option.some.inj hSame] at hSquare hCurly
        exact hClose.elim hSquare hCurly
      rw [if_pos hNot]
      exact found_itemLoop hClose hScan hStarts (s.length + 1)
        (skipWs_le hIdx) (by omega) (drop_skipWs s idx) hSequence

--------------------
-- Words
--------------------

/- The literals, three of them not of JSON. -/
def pythonWords : List (List Char) :=
  ["null".toList, "true".toList, "false".toList, "NaN".toList,
    "Infinity".toList, "-Infinity".toList]

theorem mem_pythonWords_iff (w : List Char) :
    w ∈ pythonWords ↔
      w = "null".toList ∨ w = "true".toList ∨
        w = "false".toList ∨ w = "NaN".toList ∨
          w = "Infinity".toList ∨ w = "-Infinity".toList := by
  rw [pythonWords]
  simp only [List.mem_cons, List.not_mem_nil, or_false]

theorem starts_word
    {w : List Char}
    (hWord : w ∈ pythonWords)
    (rest : List Char) :
    Starts (w ++ rest) := by
  rcases (mem_pythonWords_iff w).mp hWord with
    rfl | rfl | rfl | rfl | rfl | rfl
  all_goals
    exact ⟨_, _, rfl, rfl, by decide, by decide⟩

theorem not_number_word
    {w : List Char}
    (hWord : w ∈ pythonWords)
    (text rest : List Char) :
    ¬ Number (w ++ text) rest := by
  intro hNumber
  rcases hNumber.starts_cases with
    ⟨c, tail, hText, hC⟩ | ⟨_, hText, c, tail, rfl, hC⟩
  all_goals
    rcases (mem_pythonWords_iff w).mp hWord with
      rfl | rfl | rfl | rfl | rfl | rfl
  all_goals
    cases hText
    try cases hC

/- No literal starts another one. -/
theorem word_eq_of_prefix
    {w other text : List Char}
    (hWord : w ∈ pythonWords)
    (hOther : other ∈ pythonWords)
    (hText : w <+: text)
    (hOtherText : other <+: text) :
    w = other := by
  have hHead :
      ∀ v ∈ pythonWords, v <+: text →
        ∃ c, v.head? = some c ∧ text.head? = some c := by
    rintro v hV ⟨tail, hTail⟩
    obtain ⟨c, rest, hSame, _⟩ := starts_word hV []
    rw [List.append_nil] at hSame
    rw [← hTail, hSame]
    exact ⟨c, rfl, rfl⟩
  obtain ⟨c, hC, hTextC⟩ := hHead w hWord hText
  obtain ⟨d, hD, hTextD⟩ := hHead other hOther hOtherText
  rw [hTextC] at hTextD
  rw [← Option.some.inj hTextD, ← hC] at hD
  rcases (mem_pythonWords_iff w).mp hWord with
    rfl | rfl | rfl | rfl | rfl | rfl
  all_goals
    rcases (mem_pythonWords_iff other).mp hOther with
      rfl | rfl | rfl | rfl | rfl | rfl
  all_goals first | rfl | cases hD

theorem isWordAt_iff
    {s : List Char}
    {idx : Nat}
    {c first : Char}
    {word : String}
    (hAt : s[idx]? = some c)
    (hFirst : word.toList.head? = some first) :
    c = first ∧ isWordAt s idx word ↔
      word.toList <+: s.drop idx := by
  have hBound := (drop_of_at hAt).2
  constructor
  · rintro ⟨_, _, hTake⟩
    rw [← hTake]
    exact List.take_prefix _ _
  · rintro hPrefix
    have hLength := hPrefix.length_le
    rw [List.length_drop] at hLength
    obtain ⟨tail, hTail⟩ := hPrefix
    refine ⟨?_, by omega, ?_⟩
    · have hHead := congrArg List.head? hTail
      rw [List.head?_append, hFirst, List.head?_drop, hAt] at hHead
      exact (Option.some.inj hHead).symm
    · rw [← hTail]
      exact List.take_left

/- A literal is read where one stands, or else a number. -/
theorem plainValue_cases
    {s : List Char}
    {idx : Nat}
    {c : Char}
    (hAt : s[idx]? = some c) :
    (∃ w ∈ pythonWords,
        w <+: s.drop idx ∧
          plainValue s idx c = .ok (idx + w.length)) ∨
      (∀ w ∈ pythonWords, ¬ w <+: s.drop idx) ∧
        plainValue s idx c = number s idx := by
  have hNull : c = 'n' ∧ isWordAt s idx "null" ↔ _ :=
    isWordAt_iff hAt rfl
  have hTrue : c = 't' ∧ isWordAt s idx "true" ↔ _ :=
    isWordAt_iff hAt rfl
  have hFalse : c = 'f' ∧ isWordAt s idx "false" ↔ _ :=
    isWordAt_iff hAt rfl
  have hNaN : c = 'N' ∧ isWordAt s idx "NaN" ↔ _ :=
    isWordAt_iff hAt rfl
  have hInfinity : c = 'I' ∧ isWordAt s idx "Infinity" ↔ _ :=
    isWordAt_iff hAt rfl
  have hNegative : c = '-' ∧ isWordAt s idx "-Infinity" ↔ _ :=
    isWordAt_iff hAt rfl
  have hWords := mem_pythonWords_iff
  simp only [plainValue, hNull, hTrue, hFalse, hNaN, hInfinity,
    hNegative]
  have hFound :
      ∀ {word : String} {result : Scan},
        word.toList ∈ pythonWords →
          word.toList <+: s.drop idx →
            result = .ok (idx + word.toList.length) →
              (∃ w ∈ pythonWords,
                w <+: s.drop idx ∧ result = .ok (idx + w.length)) ∨
              (∀ w ∈ pythonWords, ¬ w <+: s.drop idx) ∧
                result = number s idx :=
    fun hWord hText hResult => Or.inl ⟨_, hWord, hText, hResult⟩
  split
  · rename_i hText
    exact hFound ((hWords _).mpr (by simp)) hText rfl
  split
  · rename_i hText
    exact hFound ((hWords _).mpr (by simp)) hText rfl
  split
  · rename_i hText
    exact hFound ((hWords _).mpr (by simp)) hText rfl
  split
  · rename_i hText
    exact hFound ((hWords _).mpr (by simp)) hText rfl
  split
  · rename_i hText
    exact hFound ((hWords _).mpr (by simp)) hText rfl
  split
  · rename_i hText
    exact hFound ((hWords _).mpr (by simp)) hText rfl
  right
  refine ⟨?_, rfl⟩
  intro w hWord
  rcases (hWords w).mp hWord with
    rfl | rfl | rfl | rfl | rfl | rfl
  all_goals assumption

--------------------
-- Values
--------------------

theorem value_of_leaf
    {words : List (List Char)}
    {depth : Nat}
    {text rest : List Char}
    (hLeaf : Leaf words text rest) :
    Value words depth text rest := by
  cases depth with
  | zero => exact hLeaf
  | succ depth => exact Or.inl hLeaf

theorem fine_plainValue
    {s : List Char}
    {idx : Nat}
    {c : Char}
    (hAt : s[idx]? = some c) :
    Fine s (Leaf pythonWords) idx (plainValue s idx c) := by
  have hBound := (drop_of_at hAt).2
  have hIdx : idx ≤ s.length := Nat.le_of_lt hBound
  rcases plainValue_cases hAt with
    ⟨w, hWord, hText, hOk⟩ | ⟨_, hNumber⟩
  · have hLength := hText.length_le
    rw [List.length_drop] at hLength
    obtain ⟨first, tail, hW, _⟩ := starts_word hWord []
    have hPos := congrArg List.length hW
    rw [List.append_nil, List.length_cons] at hPos
    obtain ⟨rest, hRest⟩ := hText
    have hDrop : s.drop (idx + w.length) = rest := by
      rw [← List.drop_drop, ← hRest, List.drop_left]
    rw [hOk]
    refine .found (by omega) (by omega) ?_
    rw [hDrop, ← hRest]
    exact .word hWord
  · have hPart := part_number hIdx
    rw [hNumber]
    generalize number s idx = result at hPart
    cases hPart with
    | absent _ => exact .value hIdx
    | found hLess hLength hRule _ =>
        exact .found hLess hLength (.number hRule)

theorem found_plainValue
    {s : List Char}
    {idx : Nat}
    {c : Char}
    (hAt : s[idx]? = some c)
    {rest : List Char} :
    (∀ w ∈ pythonWords, s.drop idx = w ++ rest →
      Found s rest (plainValue s idx c)) ∧
      (Number (s.drop idx) rest → Follows rest →
        Found s rest (plainValue s idx c)) := by
  have hIdx : idx ≤ s.length := Nat.le_of_lt (drop_of_at hAt).2
  constructor
  · intro w hWord hDrop
    have hText : w <+: s.drop idx := ⟨rest, hDrop.symm⟩
    have hLength := hText.length_le
    rw [List.length_drop] at hLength
    rcases plainValue_cases hAt with
      ⟨other, hOther, hOtherText, hOk⟩ | ⟨hNone, _⟩
    · have hSame :=
        word_eq_of_prefix hWord hOther hText hOtherText
      rw [← hSame] at hOk
      refine ⟨_, ?_, hOk, ?_⟩
      · omega
      · rw [← List.drop_drop, hDrop, List.drop_left]
    · exact absurd hText (hNone w hWord)
  · intro hRule hFollows
    rcases plainValue_cases hAt with
      ⟨w, hWord, ⟨tail, hTail⟩, _⟩ | ⟨_, hNumber⟩
    · rw [← hTail] at hRule
      exact absurd hRule (not_number_word hWord tail rest)
    · have hPart := part_number hIdx
      rw [hNumber]
      generalize number s idx = result at hPart
      cases hPart with
      | absent hNone =>
          exact absurd hFollows.afterNumber (hNone rest hRule)
      | @found j _ hLength _ hOnly =>
          exact ⟨j, hLength, rfl,
            (hOnly rest hRule hFollows.afterNumber).symm⟩

/- A word or a number, by its first sign. -/
theorem scanOnce_plain
    {s : List Char}
    {idx : Nat}
    {c : Char}
    (left : Nat)
    (hAt : s[idx]? = some c)
    (hMark : c ≠ mark)
    (hOpen : ¬ (c = openBrace ∨ c = '[')) :
    scanOnce s left idx = plainValue s idx c := by
  cases left <;>
    simp only [scanOnce, hAt, if_neg hMark, if_neg hOpen]

theorem scanOnce_string
    {s : List Char}
    {idx : Nat}
    (left : Nat)
    (hAt : s[idx]? = some mark) :
    scanOnce s left idx = scanString s (idx + 1) := by
  cases left <;>
    simp only [scanOnce, hAt, if_pos]

theorem scanOnce_object
    {s : List Char}
    {idx : Nat}
    (left : Nat)
    (hAt : s[idx]? = some openBrace) :
    scanOnce s (left + 1) idx =
      object (scanOnce s left) s (idx + 1) := by
  have hMark : openBrace ≠ mark := by decide
  simp only [scanOnce, hAt, if_neg hMark, true_or, if_true]

theorem scanOnce_array
    {s : List Char}
    {idx : Nat}
    (left : Nat)
    (hAt : s[idx]? = some '[') :
    scanOnce s (left + 1) idx =
      array (scanOnce s left) s (idx + 1) := by
  have hMark : '[' ≠ mark := by decide
  have hBrace : '[' ≠ openBrace := by decide
  simp only [scanOnce, hAt, if_neg hMark, or_true, if_true,
    if_neg hBrace]

theorem scanOnce_tooDeep
    {s : List Char}
    {idx : Nat}
    {c : Char}
    (hAt : s[idx]? = some c)
    (hOpen : c = openBrace ∨ c = '[') :
    scanOnce s 0 idx = .error (.stop .tooDeep) := by
  have hMark : c ≠ mark := by
    rcases hOpen with h | h <;> rw [h] <;> decide
  simp only [scanOnce, hAt, if_neg hMark, if_pos hOpen]

theorem starts_pythonValue
    {depth : Nat}
    (text rest : List Char)
    (hValue : Value pythonWords depth text rest) :
    Starts text :=
  starts_value (fun _ hWord => starts_word hWord) hValue

--------------------
-- Documents
--------------------

theorem fine_scanOnce_of_open
    {s : List Char}
    {left idx : Nat}
    (hIdx : idx ≤ s.length)
    (hOpen :
      ∀ c, s[idx]? = some c → c = openBrace ∨ c = '[' →
        Fine s (Value pythonWords left) idx (scanOnce s left idx)) :
    Fine s (Value pythonWords left) idx (scanOnce s left idx) := by
  cases hAt : s[idx]? with
  | none =>
      rw [scanOnce_none left hAt]
      exact .value hIdx
  | some c =>
      by_cases hMark : c = mark
      · rw [hMark] at hAt
        obtain ⟨hDrop, hBound⟩ := drop_of_at hAt
        rw [scanOnce_string left hAt]
        rcases scanString_cases hBound with
          ⟨j, hOk, hLess, hJ, hEnd⟩ |
          ⟨text, pos, hError, hPos, _⟩
        · rw [hOk]
          refine .found (by omega) hJ (value_of_leaf ?_)
          rw [hDrop]
          exact .string ((hEnd _).mpr rfl)
        · rw [hError]
          exact .msg hPos
      · by_cases hSign : c = openBrace ∨ c = '['
        · exact hOpen c hAt hSign
        · rw [scanOnce_plain left hAt hMark hSign]
          exact (fine_plainValue hAt).shift (Nat.le_refl idx)
            (fun _ hLeaf => value_of_leaf hLeaf)

theorem fine_scanOnce
    {s : List Char}
    (left : Nat)
    {idx : Nat}
    (hIdx : idx ≤ s.length) :
    Fine s (Value pythonWords left) idx (scanOnce s left idx) := by
  induction left generalizing idx with
  | zero =>
      exact fine_scanOnce_of_open hIdx
        (fun c hAt hOpen => by
          rw [scanOnce_tooDeep hAt hOpen]
          exact .tooDeep)
  | succ left ih =>
      apply fine_scanOnce_of_open hIdx
      rintro c hAt (rfl | rfl)
      · obtain ⟨hDrop, hBound⟩ := drop_of_at hAt
        have hMembers :
            ∀ i ≤ s.length,
              Fine s (Member (Value pythonWords left)) i
                (member (scanOnce s left) s i) :=
          fun i hI => fine_member (fun j hJ => ih hJ) hI
        rw [scanOnce_object left hAt, object]
        apply (fine_container closeBrace hMembers hBound).shift
          (Nat.le_succ idx)
        intro rest hRest
        rw [hDrop]
        exact Or.inr (.object hRest)
      · obtain ⟨hDrop, hBound⟩ := drop_of_at hAt
        rw [scanOnce_array left hAt, array]
        apply (fine_container ']' (fun i hI => ih hI) hBound).shift
          (Nat.le_succ idx)
        intro rest hRest
        rw [hDrop]
        exact Or.inr (.array hRest)

/- What the depth has no part in. -/
theorem found_leaf
    {s : List Char}
    (left : Nat)
    {idx : Nat}
    {rest : List Char}
    (hLeaf : Leaf pythonWords (s.drop idx) rest)
    (hFollows : Follows rest) :
    Found s rest (scanOnce s left idx) := by
  obtain ⟨c, tail, hText, _, _, _⟩ :=
    hLeaf.starts (fun _ hWord => starts_word hWord)
  obtain ⟨hAt, hTail, hBound⟩ := at_of_drop hText
  have hPlain := @found_plainValue s idx c hAt rest
  generalize hWhole : s.drop idx = whole at hLeaf
  cases hLeaf with
  | @word w _ hWord =>
      have hNot : c ≠ mark ∧ ¬ (c = openBrace ∨ c = '[') := by
        rw [hWhole] at hText
        rcases (mem_pythonWords_iff w).mp hWord with
          rfl | rfl | rfl | rfl | rfl | rfl
        all_goals
          cases hText
          exact ⟨by decide, by decide⟩
      rw [scanOnce_plain left hAt hNot.1 hNot.2]
      exact hPlain.1 w hWord hWhole
  | string hChars =>
      obtain ⟨hMark, hAfter, _⟩ := at_of_drop hWhole
      rw [← hAfter] at hChars
      rw [scanOnce_string left hMark]
      rcases scanString_cases hBound with
        ⟨j, hOk, _, hJ, hEnd⟩ | ⟨_, _, _, _, hNone⟩
      · exact ⟨j, hJ, hOk, ((hEnd rest).mp hChars).symm⟩
      · exact absurd hChars (hNone rest)
  | number hNumber =>
      have hNot : c ≠ mark ∧ ¬ (c = openBrace ∨ c = '[') := by
        rw [hWhole] at hText
        rcases hNumber.starts_cases with
          ⟨d, more, hDigit, hD⟩ | ⟨more, hDash, _⟩
        · rw [hText] at hDigit
          cases hDigit
          refine ⟨?_, ?_⟩
          · rintro rfl
            cases hD
          · rintro (rfl | rfl) <;> cases hD
        · rw [hText] at hDash
          cases hDash
          exact ⟨by decide, by decide⟩
      rw [scanOnce_plain left hAt hNot.1 hNot.2]
      rw [hWhole] at hPlain
      exact hPlain.2 hNumber hFollows

theorem correct_scanOnce (s : List Char) (left : Nat) :
    Correct s (Value pythonWords left) (scanOnce s left) := by
  induction left with
  | zero =>
      refine ⟨fun idx hIdx => fine_scanOnce 0 hIdx, ?_⟩
      intro idx _ rest hValue hFollows
      exact found_leaf 0 hValue hFollows
  | succ left ih =>
      refine ⟨fun idx hIdx => fine_scanOnce (left + 1) hIdx, ?_⟩
      intro idx _ rest hValue hFollows
      rcases hValue with hLeaf | hNested
      · exact found_leaf (left + 1) hLeaf hFollows
      · generalize hText : s.drop idx = text at hNested
        cases hNested with
        | array hContainer =>
            obtain ⟨hAt, hTail, hBound⟩ := at_of_drop hText
            rw [← hTail] at hContainer
            rw [scanOnce_array left hAt]
            exact (correct_container (Or.inl rfl) ih
              starts_pythonValue).complete (idx + 1) hBound rest
                hContainer hFollows
        | object hContainer =>
            obtain ⟨hAt, hTail, hBound⟩ := at_of_drop hText
            have hMembers := correct_member ih starts_pythonValue
            rw [← hTail] at hContainer
            rw [scanOnce_object left hAt]
            exact (correct_container (Or.inr rfl) hMembers
              (fun _ _ hMember => hMember.starts)).complete
                (idx + 1) hBound rest hContainer hFollows

/- The value of a document is found, up to its white space. -/
theorem found_document
    {text : List Char}
    (hDocument : Document pythonWords maxDepth text) :
    ∃ j ≤ text.length,
      scanOnce text maxDepth (skipWs text 0) = .ok j ∧
        skipWs text j = text.length := by
  obtain ⟨a, b, hBlank, hValue, hEnd⟩ := hDocument
  have hStart : skipWs text 0 ≤ text.length :=
    skipWs_le (Nat.zero_le _)
  have hSkipped :
      text.drop (skipWs text 0) = text.dropWhile isWs :=
    drop_skipWs text 0
  have hNil : ∀ c ∈ ([] : List Char).head?, isWs c = false := by
    intro c hC
    cases hC
  have hFollows : Follows [] := by
    intro c hC
    cases hC
  rw [← (starts_pythonValue a b hValue).dropWhile hBlank,
    ← hSkipped] at hValue
  obtain ⟨j, hJ, hOk, hDrop⟩ :=
    (correct_scanOnce text maxDepth).complete _ hStart b hValue
      (hEnd.follows hFollows)
  refine ⟨j, hJ, hOk, ?_⟩
  have hLast := drop_skipWs text j
  rw [hDrop, hEnd.eq_dropWhile hNil] at hLast
  exact Nat.le_antisymm (skipWs_le hJ)
    (List.drop_eq_nil_iff.mp hLast)

theorem document_of_ok
    {text : List Char}
    {j : Nat}
    (hOk : scanOnce text maxDepth (skipWs text 0) = .ok j)
    (hEnd : skipWs text j = text.length) :
    Document pythonWords maxDepth text := by
  have hStart : skipWs text 0 ≤ text.length :=
    skipWs_le (Nat.zero_le _)
  have hFine := fine_scanOnce maxDepth hStart
  have hBlank := blank_skipWs text j
  rw [hEnd, List.drop_length] at hBlank
  rw [hOk] at hFine
  cases hFine with
  | found _ _ hValue =>
      exact ⟨_, _, blank_skipWs text 0, hValue, hBlank⟩

/- The walk over the text never panics. -/
theorem pythonDecodeError_runs (text : List Char) :
    ∃ result, pythonDecodeError text = .ok result := by
  have hStart : skipWs text 0 ≤ text.length :=
    skipWs_le (Nat.zero_le _)
  have hFine := fine_scanOnce maxDepth hStart
  rw [pythonDecodeError]
  generalize scanOnce text maxDepth (skipWs text 0) = result
    at hFine
  cases hFine with
  | value _ => exact ⟨_, rfl⟩
  | msg _ => exact ⟨_, rfl⟩
  | tooDeep => exact ⟨_, rfl⟩
  | found _ _ =>
      dsimp only
      split <;> exact ⟨_, rfl⟩

/-
  Every text has a result: none for the documents, else a
  place in the text, unless it nests too deep.
-/
theorem pythonDecodeError_exact (text : List Char) :
    ∃ result,
      pythonDecodeError text = .ok result ∧
        (result = none ↔ Document pythonWords 900 text) ∧
        ∀ msg pos,
          result = some (.invalid msg pos) →
            pos ≤ text.length := by
  have hStart : skipWs text 0 ≤ text.length :=
    skipWs_le (Nat.zero_le _)
  have hFine := fine_scanOnce maxDepth hStart
  have hRefused :
      ∀ {halt : Halt},
        scanOnce text maxDepth (skipWs text 0) = .error halt →
          ¬ Document pythonWords 900 text := by
    intro halt hHalt hDocument
    obtain ⟨j, _, hOk, _⟩ := found_document hDocument
    rw [hHalt] at hOk
    cases hOk
  rw [pythonDecodeError]
  generalize hResult :
    scanOnce text maxDepth (skipWs text 0) = result at hFine
  cases hFine with
  | value hPos =>
      refine ⟨_, rfl, ⟨nofun, ?_⟩, ?_⟩
      · intro hDocument
        exact absurd hDocument (hRefused hResult)
      · intro msg pos hSame
        cases hSame
        exact hPos
  | msg hPos =>
      refine ⟨_, rfl, ⟨nofun, ?_⟩, ?_⟩
      · intro hDocument
        exact absurd hDocument (hRefused hResult)
      · intro msg pos hSame
        cases hSame
        exact hPos
  | tooDeep =>
      refine ⟨_, rfl, ⟨nofun, ?_⟩, nofun⟩
      intro hDocument
      exact absurd hDocument (hRefused hResult)
  | @found j _ hJ _ =>
      dsimp only
      by_cases hEnd : skipWs text j = text.length
      · rw [if_neg (fun h => h hEnd)]
        refine ⟨none, rfl, ⟨?_, fun _ => rfl⟩, nofun⟩
        intro _
        exact document_of_ok hResult hEnd
      · rw [if_pos hEnd]
        refine ⟨_, rfl, ⟨nofun, ?_⟩, ?_⟩
        · intro hDocument
          obtain ⟨k, _, hOk, hLast⟩ := found_document hDocument
          rw [hResult] at hOk
          cases hOk
          exact absurd hLast hEnd
        · intro msg pos hSame
          cases hSame
          exact skipWs_le hJ

end PyJson

end SentinelCommand
