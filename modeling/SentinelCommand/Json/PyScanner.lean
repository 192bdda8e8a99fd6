import SentinelCommand.Json.PyDecoder

/-
  The strings of the scanner of `pyjson.rs`, by index, against
  the grammar of what is left of the text.

  A round of the string loop keeps the strings that can follow,
  so that a pair of surrogates, which is read at once, makes no
  difference to what is accepted.

  Key definitions include:
    * `PyJson.Turned`

  Correctness is proven by:
    * `PyJson.turned_stringTurn`
    * `PyJson.scanString_cases`
-/

--------------------
-- Positions
--------------------

namespace SentinelCommand

namespace PyJson

open JsonGrammar

theorem drop_of_at
    {s : List Char}
    {i : Nat}
    {c : Char}
    (hAt : s[i]? = some c) :
    s.drop i = c :: s.drop (i + 1) ∧ i < s.length := by
  obtain ⟨hI, hC⟩ := List.getElem?_eq_some_iff.mp hAt
  refine ⟨?_, hI⟩
  rw [List.drop_eq_getElem_cons hI, hC]

theorem at_of_drop
    {s rest : List Char}
    {i : Nat}
    {c : Char}
    (hDrop : s.drop i = c :: rest) :
    s[i]? = some c ∧ s.drop (i + 1) = rest ∧ i < s.length := by
  have hHead := congrArg List.head? hDrop
  rw [List.head?_drop, List.head?_cons] at hHead
  have hTail := (drop_of_at hHead).1
  rw [hDrop] at hTail
  exact ⟨hHead, (List.cons.inj hTail).2.symm,
    (drop_of_at hHead).2⟩

theorem index_of_at
    {s : List Char}
    {i : Nat}
    {c : Char}
    (hAt : s[i]? = some c) :
    index s i = .ok c := by
  rw [index, hAt]

theorem exists_at
    {s : List Char}
    {i : Nat}
    (hI : i < s.length) :
    ∃ c, s[i]? = some c :=
  ⟨s[i], List.getElem?_eq_getElem hI⟩

theorem sub_of_le
    {a b : Nat}
    (hLe : b ≤ a) :
    sub a b = .ok (a - b) :=
  if_pos hLe

/- Characters with a property are passed one after the other. -/
theorem drop_passed
    (p : Char → Bool)
    (s : List Char)
    (i : Nat) :
    s.drop (i + ((s.drop i).takeWhile p).length) =
      (s.drop i).dropWhile p := by
  have hSplit :
      (s.drop i).takeWhile p ++ (s.drop i).dropWhile p =
        s.drop i :=
    List.takeWhile_append_dropWhile
  rw [← List.drop_drop]
  calc
    (s.drop i).drop ((s.drop i).takeWhile p).length
        = ((s.drop i).takeWhile p ++
            (s.drop i).dropWhile p).drop
              ((s.drop i).takeWhile p).length := by
          rw [hSplit]
    _ = (s.drop i).dropWhile p := List.drop_left

theorem passed_le
    (p : Char → Bool)
    {s : List Char}
    {i : Nat}
    (hI : i ≤ s.length) :
    i + ((s.drop i).takeWhile p).length ≤ s.length := by
  have hLength :=
    (List.takeWhile_sublist p (l := s.drop i)).length_le
  rw [List.length_drop] at hLength
  omega

theorem drop_skipWs (s : List Char) (i : Nat) :
    s.drop (skipWs s i) = (s.drop i).dropWhile isWs :=
  drop_passed isWs s i

theorem le_skipWs (s : List Char) (i : Nat) :
    i ≤ skipWs s i :=
  Nat.le_add_right _ _

theorem skipWs_le
    {s : List Char}
    {i : Nat}
    (hI : i ≤ s.length) :
    skipWs s i ≤ s.length :=
  passed_le isWs hI

theorem skipWs_next_le
    {s : List Char}
    {i : Nat}
    (hI : i < s.length) :
    skipWs s (i + 1) ≤ s.length :=
  skipWs_le hI

theorem blank_skipWs (s : List Char) (i : Nat) :
    Blank (s.drop i) (s.drop (skipWs s i)) := by
  rw [drop_skipWs]
  exact blank_dropWhile _

theorem drop_skipDigits (s : List Char) (i : Nat) :
    s.drop (skipDigits s i) = (s.drop i).dropWhile Char.isDigit :=
  drop_passed Char.isDigit s i

theorem skipDigits_le
    {s : List Char}
    {i : Nat}
    (hI : i ≤ s.length) :
    skipDigits s i ≤ s.length :=
  passed_le Char.isDigit hI

theorem digits_skipDigits (s : List Char) (i : Nat) :
    Digits (s.drop i) (s.drop (skipDigits s i)) := by
  rw [drop_skipDigits]
  exact digits_dropWhile _

--------------------
-- Strings
--------------------

/- What stands behind the plain characters of a text. -/
inductive Ran : List Char → Nat → Run → Prop where
  | control {run rest : List Char} {c : Char} {next : Nat} :
      (∀ d ∈ run, isPlain d = true) → c.toNat < 32 →
        Ran (run ++ c :: rest) next (.control (next + run.length))
  | sign {run rest : List Char} {c : Char} {next : Nat} :
      (∀ d ∈ run, isPlain d = true) → (c = mark ∨ c = solidus) →
        Ran (run ++ c :: rest) next (.sign c (next + run.length))
  | ended {run : List Char} {next : Nat} :
      (∀ d ∈ run, isPlain d = true) → Ran run next .ended

theorem ran_sign
    {c : Char}
    {rest : List Char}
    {next : Nat}
    (hC : c = mark ∨ c = solidus) :
    Ran (c :: rest) next (.sign c next) := by
  have hNone : ∀ d ∈ ([] : List Char), isPlain d = true := by
    intro d hD
    cases hD
  exact .sign hNone hC

theorem ran_control
    {c : Char}
    {rest : List Char}
    {next : Nat}
    (hC : c.toNat < 32) :
    Ran (c :: rest) next (.control next) := by
  have hNone : ∀ d ∈ ([] : List Char), isPlain d = true := by
    intro d hD
    cases hD
  exact .control hNone hC

theorem ran_plainRun
    (text : List Char)
    (next : Nat) :
    Ran text next (plainRun text next) := by
  induction text generalizing next with
  | nil =>
      exact .ended (fun _ h => by cases h)
  | cons c rest ih =>
      rw [plainRun]
      split
      · rename_i hSign
        exact ran_sign hSign
      · rename_i hSign
        split
        · rename_i hControl
          exact ran_control (by omega)
        · rename_i hControl
          have hPlain : isPlain c = true := by
            rw [not_or] at hSign
            unfold isPlain
            simp only [Bool.and_eq_true, decide_eq_true_eq]
            exact ⟨hSign, by omega⟩
          have hRest := ih (next + 1)
          have hAll :
              ∀ {run : List Char},
                (∀ d ∈ run, isPlain d = true) →
                  ∀ d ∈ c :: run, isPlain d = true := by
            intro run hRun d hD
            rcases List.mem_cons.mp hD with h | h
            · rw [h]
              exact hPlain
            · exact hRun d h
          have hShift :
              ∀ run : List Char,
                next + 1 + run.length =
                  next + (c :: run).length := by
            intro run
            rw [List.length_cons]
            omega
          generalize plainRun rest (next + 1) = result at hRest
          cases hRest with
          | @control run rest d _ hRun hD =>
              rw [hShift]
              exact .control (hAll hRun) hD
          | @sign run rest d _ hRun hD =>
              rw [hShift]
              exact .sign (hAll hRun) hD
          | ended hRun => exact .ended (hAll hRun)

theorem chars_run_iff
    {run : List Char}
    (hRun : ∀ d ∈ run, isPlain d = true)
    (text rest : List Char) :
    Chars (run ++ text) rest ↔ Chars text rest := by
  induction run with
  | nil => exact Iff.rfl
  | cons c run ih =>
      have hRest := ih (fun d hD =>
        hRun d (List.mem_cons_of_mem c hD))
      rw [List.cons_append,
        chars_plain_iff (hRun c List.mem_cons_self), hRest]

theorem hexRun_digit
    {s : List Char}
    {last next code v : Nat}
    {c : Char}
    (count : Nat)
    (hAt : s[next]? = some c)
    (hHex : Utf16.hexDigit c = some v) :
    hexRun s last (count + 1) next code =
      hexRun s last count (next + 1)
        ((code <<< 4) % 2 ^ 32 ||| v) := by
  simp only [hexRun, index_of_at hAt, bind, Except.bind, hHex]

theorem hexRun_other
    {s : List Char}
    {last next code : Nat}
    {c : Char}
    (count : Nat)
    (hLast : 5 ≤ last)
    (hAt : s[next]? = some c)
    (hHex : Utf16.hexDigit c = none) :
    hexRun s last (count + 1) next code =
      .error (stopAt invalidUnit (last - 5)) := by
  simp only [hexRun, index_of_at hAt, bind, Except.bind, hHex,
    sub_of_le hLast]

/- The digits of a unit, read as far as they are digits. -/
theorem hexRun_cases
    (s : List Char)
    {last : Nat}
    (hLast : 5 ≤ last)
    (count next code : Nat)
    (hNext : next + count ≤ s.length) :
    (∃ v, hexRun s last count next code = .ok v) ∧
        (∀ c ∈ (s.drop next).take count, isHex c = true) ∨
      hexRun s last count next code =
          .error (stopAt invalidUnit (last - 5)) ∧
        ¬ ∀ c ∈ (s.drop next).take count, isHex c = true := by
  induction count generalizing next code with
  | zero =>
      left
      refine ⟨⟨code, rfl⟩, ?_⟩
      intro c hC
      rw [List.take_zero] at hC
      cases hC
  | succ count ih =>
      obtain ⟨c, hAt⟩ := exists_at (s := s) (i := next) (by omega)
      rw [(drop_of_at hAt).1, List.take_succ_cons]
      cases hHex : Utf16.hexDigit c with
      | none =>
          right
          refine ⟨hexRun_other count hLast hAt hHex, ?_⟩
          intro hAll
          have hC := hAll c List.mem_cons_self
          rw [isHex, hHex] at hC
          cases hC
      | some v =>
          have hC : isHex c = true := by
            rw [isHex, hHex]
            rfl
          rw [hexRun_digit count hAt hHex]
          rcases ih (next + 1) ((code <<< 4) % 2 ^ 32 ||| v)
            (by omega) with ⟨hOk, hAll⟩ | ⟨hError, hSome⟩
          · left
            refine ⟨hOk, ?_⟩
            intro d hD
            rcases List.mem_cons.mp hD with h | h
            · rw [h]
              exact hC
            · exact hAll d h
          · right
            refine ⟨hError, ?_⟩
            intro hAll
            exact hSome (fun d hD =>
              hAll d (List.mem_cons_of_mem c hD))

--------------------
-- Rounds of the String Loop
--------------------

/-
  A round keeps the ends that a string can have, finds the
  only one, or stops where it has none.
-/
inductive Turned
    (s : List Char)
    (last : Nat) : Except Halt Turn → Prop where
  | again {next : Nat} :
      last < next → next ≤ s.length →
        (∀ rest,
          Chars (s.drop last) rest ↔ Chars (s.drop next) rest) →
          Turned s last (.ok (.again next))
  | done {idx : Nat} :
      last < idx → idx ≤ s.length →
        (∀ rest, Chars (s.drop last) rest ↔ rest = s.drop idx) →
          Turned s last (.ok (.done idx))
  | stopped {text : String} {pos : Nat} :
      pos ≤ s.length → (∀ rest, ¬ Chars (s.drop last) rest) →
        Turned s last (.error (stopAt text pos))

theorem Turned.of_iff
    {s : List Char}
    {last next : Nat}
    {result : Except Halt Turn}
    (hTurned : Turned s next result)
    (hLe : last ≤ next)
    (hIff :
      ∀ rest, Chars (s.drop last) rest ↔ Chars (s.drop next) rest) :
    Turned s last result := by
  cases hTurned with
  | again hLess hLength hNext =>
      exact .again (Nat.lt_of_le_of_lt hLe hLess) hLength
        (fun rest => (hIff rest).trans (hNext rest))
  | done hLess hLength hEnd =>
      exact .done (Nat.lt_of_le_of_lt hLe hLess) hLength
        (fun rest => (hIff rest).trans (hEnd rest))
  | stopped hPos hNone =>
      exact .stopped hPos
        (fun rest hChars => hNone rest ((hIff rest).mp hChars))

/- An escape of a unit, by its position. -/
theorem unit_iff
    {s : List Char}
    {p : Nat}
    (hFirst : s[p]? = some solidus)
    (hSecond : s[p + 1]? = some 'u')
    (hLength : p + 6 ≤ s.length)
    (rest : List Char) :
    Chars (s.drop p) rest ↔
      (∀ c ∈ (s.drop (p + 2)).take 4, isHex c = true) ∧
        Chars (s.drop (p + 6)) rest := by
  have hFour : ((s.drop (p + 2)).take 4).length = 4 := by
    rw [List.length_take, List.length_drop]
    omega
  have hText :
      s.drop p =
        solidus :: 'u' ::
          ((s.drop (p + 2)).take 4 ++ s.drop (p + 6)) := by
    have hTail : s.drop (p + 6) = (s.drop (p + 2)).drop 4 := by
      rw [List.drop_drop]
    rw [hTail, List.take_append_drop, (drop_of_at hFirst).1,
      (drop_of_at hSecond).1]
  rw [hText, chars_unit_iff hFour]

theorem turned_lowHalf
    {s : List Char}
    {p last : Nat}
    (hP : p < last)
    (hRoom : last + 6 < s.length)
    (hIff :
      ∀ rest, Chars (s.drop p) rest ↔ Chars (s.drop last) rest) :
    Turned s p (lowHalf s last) := by
  have hAgain : Turned s p (.ok (.again last)) :=
    .again hP (by omega) hIff
  obtain ⟨first, hFirst⟩ := exists_at (s := s) (i := last)
    (by omega)
  obtain ⟨second, hSecond⟩ := exists_at (s := s) (i := last + 1)
    (by omega)
  simp only [lowHalf, index_of_at hFirst, index_of_at hSecond,
    bind, Except.bind]
  by_cases hSolidus : first = solidus
  · rw [if_pos hSolidus]
    by_cases hU : second = 'u'
    · rw [if_pos hU]
      rw [hSolidus] at hFirst
      rw [hU] at hSecond
      have hUnit := unit_iff hFirst hSecond (by omega)
      have hFive : 5 ≤ last + 6 := by omega
      rcases hexRun_cases s hFive 4 (last + 2) 0 (by omega) with
        ⟨⟨v, hOk⟩, hHex⟩ | ⟨hError, hSome⟩
      · rw [hOk]
        dsimp only
        split
        · apply Turned.again (by omega) (by omega)
          intro rest
          rw [hIff, hUnit]
          exact ⟨fun h => h.2, fun h => ⟨hHex, h⟩⟩
        · exact hAgain
      · rw [hError]
        apply Turned.stopped (by omega)
        intro rest hChars
        rw [hIff, hUnit] at hChars
        exact hSome hChars.1
    · rw [if_neg hU]
      exact hAgain
  · rw [if_neg hSolidus]
    exact hAgain

theorem turned_unitEscape
    {s : List Char}
    {p : Nat}
    (hFirst : s[p]? = some solidus)
    (hSecond : s[p + 1]? = some 'u') :
    Turned s p (unitEscape s (p + 2)) := by
  obtain ⟨hDrop, hP⟩ := drop_of_at hFirst
  obtain ⟨hDropU, hU⟩ := drop_of_at hSecond
  rw [unitEscape]
  by_cases hShort : p + 2 + 4 ≥ s.length
  · rw [if_pos hShort, sub_of_le (by omega)]
    apply Turned.stopped (by omega)
    intro rest hChars
    rw [hDrop, hDropU] at hChars
    apply not_chars_unit_short _ rest hChars
    rw [List.length_drop]
    omega
  · rw [if_neg hShort]
    have hUnit := unit_iff hFirst hSecond (by omega)
    have hFive : 5 ≤ p + 2 + 4 := by omega
    rcases hexRun_cases s hFive 4 (p + 2) 0 (by omega) with
      ⟨⟨code, hOk⟩, hHex⟩ | ⟨hError, hSome⟩
    · have hIff :
          ∀ rest,
            Chars (s.drop p) rest ↔
              Chars (s.drop (p + 2 + 4)) rest := by
        intro rest
        rw [hUnit]
        exact ⟨fun h => h.2, fun h => ⟨hHex, h⟩⟩
      simp only [hOk, bind, Except.bind]
      split
      · rename_i hPair
        exact turned_lowHalf (by omega) hPair.2 hIff
      · exact .again (by omega) (by omega) hIff
    · simp only [hError, bind, Except.bind]
      apply Turned.stopped (by omega)
      intro rest hChars
      rw [hUnit] at hChars
      exact hSome hChars.1

theorem turned_escape
    {s : List Char}
    {p start : Nat}
    (hStart : start ≤ s.length)
    (hFirst : s[p]? = some solidus) :
    Turned s p (escape s start (p + 1)) := by
  obtain ⟨hDrop, hP⟩ := drop_of_at hFirst
  rw [escape]
  by_cases hEnd : p + 1 = s.length
  · rw [if_pos hEnd]
    apply Turned.stopped hStart
    intro rest hChars
    rw [hDrop, hEnd, List.drop_length] at hChars
    exact not_chars_solidus rest hChars
  · rw [if_neg hEnd]
    obtain ⟨e, hE⟩ := exists_at (s := s) (i := p + 1) (by omega)
    have hDropE := (drop_of_at hE).1
    simp only [index_of_at hE, bind, Except.bind]
    by_cases hU : e = 'u'
    · rw [if_pos hU]
      rw [hU] at hE
      exact turned_unitEscape hFirst hE
    · have hIff :
          ∀ rest,
            Chars (s.drop p) rest ↔
              isShort e = true ∧
                Chars (s.drop (p + 1 + 1)) rest := by
        intro rest
        rw [hDrop, hDropE]
        exact chars_escape_iff hU _ rest
      rw [if_neg hU]
      cases hShort : isShort e with
      | true =>
          rw [if_pos rfl]
          apply Turned.again (by omega) (by omega)
          intro rest
          rw [hIff]
          exact ⟨fun h => h.2, fun h => ⟨hShort, h⟩⟩
      | false =>
          rw [if_neg Bool.noConfusion, sub_of_le (by omega)]
          apply Turned.stopped (by omega)
          intro rest hChars
          rw [hIff, hShort] at hChars
          cases hChars.1

theorem turned_stringTurn
    {s : List Char}
    {start last : Nat}
    (hStart : start ≤ s.length)
    (hLast : last ≤ s.length) :
    Turned s last (stringTurn s start last) := by
  have hRan := ran_plainRun (s.drop last) last
  have hLength : (s.drop last).length = s.length - last :=
    List.length_drop
  rw [stringTurn]
  generalize plainRun (s.drop last) last = result at hRan ⊢
  generalize hText : s.drop last = text at hRan hLength
  cases hRan with
  | @control run rest c _ hRun hC =>
      rw [List.length_append, List.length_cons] at hLength
      apply Turned.stopped (by omega)
      intro rest' hChars
      rw [hText, chars_run_iff hRun] at hChars
      exact not_chars_control hC rest rest' hChars
  | ended hRun =>
      apply Turned.stopped hStart
      intro rest hChars
      have hNil := chars_run_iff hRun [] rest
      rw [List.append_nil] at hNil
      rw [hText, hNil] at hChars
      exact not_chars_nil rest hChars
  | @sign run rest c _ hRun hC =>
      rw [List.length_append, List.length_cons] at hLength
      have hDrop : s.drop (last + run.length) = c :: rest := by
        rw [← List.drop_drop, hText, List.drop_left]
      obtain ⟨hAt, hRest, hBound⟩ := at_of_drop hDrop
      have hIff :
          ∀ rest',
            Chars (s.drop last) rest' ↔
              Chars (s.drop (last + run.length)) rest' := by
        intro rest'
        rw [hText, hDrop]
        exact chars_run_iff hRun _ rest'
      dsimp only
      by_cases hMark : c = mark
      · rw [if_pos hMark]
        apply Turned.done (by omega) (by omega)
        intro rest'
        rw [hIff, hDrop, hMark, chars_mark_iff, hRest]
      · rw [if_neg hMark]
        have hSolidus : c = solidus :=
          hC.resolve_left hMark
        rw [hSolidus] at hAt
        exact (turned_escape hStart hAt).of_iff (by omega) hIff

/- The loop finds the end of the string, or that it has none. -/
theorem stringLoop_cases
    {s : List Char}
    {start : Nat}
    (hStart : start ≤ s.length)
    (fuel : Nat)
    {last : Nat}
    (hLast : last ≤ s.length)
    (hFuel : s.length < fuel + last) :
    (∃ idx, stringLoop s start fuel last = .ok idx ∧
        last < idx ∧ idx ≤ s.length ∧
        ∀ rest, Chars (s.drop last) rest ↔ rest = s.drop idx) ∨
      ∃ text pos,
        stringLoop s start fuel last =
            .error (stopAt text pos) ∧
          pos ≤ s.length ∧
          ∀ rest, ¬ Chars (s.drop last) rest := by
  induction fuel generalizing last with
  | zero => omega
  | succ fuel ih =>
      have hTurned := turned_stringTurn hStart hLast
      rw [stringLoop]
      generalize stringTurn s start last = result at hTurned
      cases hTurned with
      | done hLess hBound hEnd =>
          left
          exact ⟨_, rfl, hLess, hBound, hEnd⟩
      | stopped hPos hNone =>
          right
          exact ⟨_, _, rfl, hPos, hNone⟩
      | @again next hLess hBound hIff =>
          rcases ih hBound (by omega) with
            ⟨idx, hOk, hIdx, hIdxBound, hEnd⟩ |
            ⟨text, pos, hError, hPos, hNone⟩
          · left
            exact ⟨idx, hOk, by omega, hIdxBound,
              fun rest => (hIff rest).trans (hEnd rest)⟩
          · right
            exact ⟨text, pos, hError, hPos,
              fun rest hChars =>
                hNone rest ((hIff rest).mp hChars)⟩

/- A string behind its opening mark, which stands at an index. -/
theorem scanString_cases
    {s : List Char}
    {idx : Nat}
    (hIdx : idx < s.length) :
    (∃ j, scanString s (idx + 1) = .ok j ∧ idx + 1 < j ∧
        j ≤ s.length ∧
        ∀ rest,
          Chars (s.drop (idx + 1)) rest ↔ rest = s.drop j) ∨
      ∃ text pos,
        scanString s (idx + 1) = .error (stopAt text pos) ∧
          pos ≤ s.length ∧
          ∀ rest, ¬ Chars (s.drop (idx + 1)) rest := by
  have hStart : idx ≤ s.length := Nat.le_of_lt hIdx
  have hLast : idx + 1 ≤ s.length := hIdx
  have hLoop :=
    stringLoop_cases hStart (s.length + 1) hLast (by omega)
  rw [scanString, sub_of_le (by omega)]
  exact hLoop

end PyJson

end SentinelCommand
