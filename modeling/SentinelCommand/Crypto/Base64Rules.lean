import Mathlib.Data.List.Induction
import SentinelCommand.Crypto.Base64

/-
  Round trips of the base64 of `crypto.rs`, and where the
  lenient decoder agrees with the one it stands in for.

  A reader's state after a text is a function of what was
  counted in it, which is all the stand-in looks at; they
  part where the reader has stopped and data goes on.

  Correctness is proven by:
    * `Base64.encode_eq`
    * `Base64.reference_cases`
    * `Base64.codecs_exact`
-/

--------------------
-- Symbols
--------------------

namespace SentinelCommand

namespace Base64

open Svix Sextets

def symbolOf (alphabet : List Char) (v : Nat) : Char :=
  alphabet.getD v 'A'

/- The padding that fills the last group. -/
def padding (length : Nat) : List Char :=
  List.replicate ((4 - length % 4) % 4) '='

theorem isKept_of_alphabet
    {c : Char}
    (hC : isBase64Alphabet c = true) :
    isKept c = true ∧ c ≠ '=' := by
  refine ⟨by simp [isKept, hC], ?_⟩
  rintro rfl
  cases hC

/- What the table says of each of its symbols. -/
theorem standard_table :
    ∀ v < 64,
      isBase64Alphabet (symbolOf standard v) = true ∧
        sextet (symbolOf standard v) = v ∧
        standard.idxOf? (symbolOf standard v) = some v := by
  decide +kernel

/- The three bytes of a chunk, as one number. -/
theorem chunk_number
    {a b c : Nat}
    (hB : b < 256)
    (hC : c < 256) :
    a <<< 16 ||| b <<< 8 ||| c = a * 65536 + b * 256 + c := by
  have hLow : b <<< 8 ||| c = b * 256 + c := by
    rw [Nat.shiftLeft_eq, Nat.mul_comm b]
    exact (Nat.two_pow_add_eq_or_of_lt hC b).symm
  have hBound : b * 256 + c < 2 ^ 16 := by
    omega
  rw [Nat.or_assoc, hLow, Nat.shiftLeft_eq, Nat.mul_comm a]
  exact (Nat.two_pow_add_eq_or_of_lt hBound a).symm.trans
    (by omega)

/- A group of a chunk's number. -/
theorem symbols_eq
    (alphabet : List Char)
    (pad : Bool)
    (chunk : List UInt8)
    (i : Nat) :
    symbols alphabet pad chunk i =
      if i ≤ chunk.length then
        [symbolOf alphabet
          (((chunk.getD 0 0).toNat * 65536 +
            (chunk.getD 1 0).toNat * 256 +
            (chunk.getD 2 0).toNat) / 2 ^ (18 - 6 * i) % 64)]
      else if pad then
        ['=']
      else
        [] := by
  have hNumber :=
    chunk_number (a := (chunk.getD 0 0).toNat)
      (chunk.getD 1 0).toNat_lt (chunk.getD 2 0).toNat_lt
  simp only [symbols]
  rw [hNumber, Nat.shiftRight_eq_div_pow,
    Nat.and_two_pow_sub_one_eq_mod _ 6]
  rfl

theorem groups_of_number
    {a b c : Nat}
    (hA : a < 256)
    (hB : b < 256)
    (hC : c < 256) :
    (a * 65536 + b * 256 + c) / 2 ^ (18 - 6 * 0) % 64 = a / 4 ∧
      (a * 65536 + b * 256 + c) / 2 ^ (18 - 6 * 1) % 64 =
        a % 4 * 16 + b / 16 ∧
      (a * 65536 + b * 256 + c) / 2 ^ (18 - 6 * 2) % 64 =
        b % 16 * 4 + c / 64 ∧
      (a * 65536 + b * 256 + c) / 2 ^ (18 - 6 * 3) % 64 =
        c % 64 := by
  refine ⟨?_, ?_, ?_, ?_⟩
  · omega
  · omega
  · omega
  · omega

theorem group_three
    (alphabet : List Char)
    (pad : Bool)
    (a b c : UInt8) :
    group alphabet pad [a, b, c] =
      (ofBytes [a, b, c]).map (symbolOf alphabet) := by
  obtain ⟨h0, h1, h2, h3⟩ :=
    groups_of_number a.toNat_lt b.toNat_lt c.toNat_lt
  rw [group, symbols_eq, symbols_eq, symbols_eq, symbols_eq]
  simp only [List.getD_cons_zero, List.getD_cons_succ]
  rw [h0, h1, h2, h3]
  rfl

theorem group_two
    (alphabet : List Char)
    (pad : Bool)
    (a b : UInt8) :
    group alphabet pad [a, b] =
      (ofBytes [a, b]).map (symbolOf alphabet) ++
        if pad then padding 3 else [] := by
  obtain ⟨h0, h1, h2, -⟩ :=
    groups_of_number a.toNat_lt b.toNat_lt
      (c := 0) (by omega)
  rw [group, symbols_eq, symbols_eq, symbols_eq, symbols_eq]
  simp only [List.getD_cons_zero, List.getD_cons_succ,
    List.getD_nil, UInt8.toNat_zero]
  rw [h0, h1, h2]
  rfl

theorem group_one
    (alphabet : List Char)
    (pad : Bool)
    (a : UInt8) :
    group alphabet pad [a] =
      (ofBytes [a]).map (symbolOf alphabet) ++
        if pad then padding 2 else [] := by
  obtain ⟨h0, h1, -, -⟩ :=
    groups_of_number a.toNat_lt
      (b := 0) (by omega) (c := 0) (by omega)
  rw [group, symbols_eq, symbols_eq, symbols_eq, symbols_eq]
  simp only [List.getD_cons_zero, List.getD_cons_succ,
    List.getD_nil, UInt8.toNat_zero]
  rw [h0, h1]
  cases pad with
  | true => rfl
  | false => rfl

theorem padding_add_four (n : Nat) :
    padding (n + 4) = padding n := by
  rw [padding, Nat.add_mod_right, padding]

/- The symbols of the groups, and padding. -/
theorem encode_eq
    (alphabet : List Char)
    (pad : Bool)
    (bytes : List UInt8) :
    encode alphabet pad bytes =
      (ofBytes bytes).map (symbolOf alphabet) ++
        if pad then padding (ofBytes bytes).length else [] := by
  induction bytes using ofBytes.induct with
  | case1 =>
      cases pad with
      | true => rfl
      | false => rfl
  | case2 a => exact group_one alphabet pad a
  | case3 a b => exact group_two alphabet pad a b
  | case4 a b c rest ih =>
      have hLength :
          (ofBytes (a :: b :: c :: rest)).length =
            (ofBytes rest).length + 4 := rfl
      rw [encode, group_three, ih, hLength, padding_add_four,
        ← List.append_assoc, ← List.map_append]
      rfl

theorem base64Standard_eq (bytes : List UInt8) :
    base64Standard bytes = encode standard true bytes := by
  induction bytes using base64Standard.induct with
  | case1 => rfl
  | case2 a => rfl
  | case3 a b => rfl
  | case4 a b c rest ih =>
      rw [base64Standard, ih]
      rfl

/- What is written of the groups of bytes. -/
theorem base64Standard_groups (bytes : List UInt8) :
    base64Standard bytes =
      (ofBytes bytes).map (symbolOf standard) ++
        padding (ofBytes bytes).length := by
  rw [base64Standard_eq, encode_eq, if_pos rfl]

/- The loop keeps its accumulator to what is shifted out. -/
theorem decodeFrom_symbols
    {vs : List Nat}
    (hVs : ∀ v ∈ vs, v < 64)
    {rest : List Char}
    (hRest : ∀ buf bits out, decodeFrom rest buf bits out = some out)
    (buf bits : Nat)
    (out : List UInt8) :
    decodeFrom (vs.map (symbolOf standard) ++ rest) buf bits out =
      some (out ++ drain buf bits vs) := by
  induction vs generalizing buf bits out with
  | nil =>
      rw [drain, List.append_nil]
      exact hRest buf bits out
  | cons v vs ih =>
      have hV := hVs v List.mem_cons_self
      have hStep := ih (fun w hW =>
        hVs w (List.mem_cons_of_mem v hW))
      obtain ⟨hAlphabet, -, hIndex⟩ := standard_table v hV
      rw [List.map_cons, List.cons_append, decodeFrom,
        if_neg (isKept_of_alphabet hAlphabet).2, hIndex]
      simp only [drain]
      split
      · rw [hStep, List.append_assoc, List.singleton_append]
      · rw [hStep]

theorem decodeFrom_padding
    (count buf bits : Nat)
    (out : List UInt8) :
    decodeFrom (List.replicate count '=') buf bits out =
      some out := by
  cases count with
  | zero => rfl
  | succ n =>
      rw [List.replicate_succ, decodeFrom, if_pos rfl]

theorem drain_ofBytes (bytes : List UInt8) :
    drain 0 0 (ofBytes bytes) = bytes := by
  have hDrain := drain_eq (ofBytes_lt bytes) .first 0
  change drain 0 0 _ = _ at hDrain
  rw [hDrain]
  exact read_ofBytes bytes

theorem base64StandardDecode_base64Standard
    (bytes : List UInt8) :
    base64StandardDecode (base64Standard bytes) = some bytes := by
  rw [base64StandardDecode, base64Standard_groups, padding,
    decodeFrom_symbols (ofBytes_lt bytes)
      (decodeFrom_padding _),
    drain_ofBytes, List.nil_append]

--------------------
-- The Lenient Decoder
--------------------

theorem sextet_lt (c : Char) :
    sextet c < 64 := by
  rw [sextet]
  split
  · rename_i hUpper
    have hLast := UInt32.le_iff_toNat_le.mp
      (of_decide_eq_true hUpper).2
    change c.toNat ≤ 90 at hLast
    omega
  · split
    · rename_i hLower
      have hLast := UInt32.le_iff_toNat_le.mp
        (of_decide_eq_true (Bool.and_eq_true_iff.mp hLower).2)
      change c.toNat ≤ 122 at hLast
      omega
    · split
      · rename_i hDigit
        have hLast := UInt32.le_iff_toNat_le.mp
          (of_decide_eq_true (Bool.and_eq_true_iff.mp hDigit).2)
        change c.toNat ≤ 57 at hLast
        omega
      · split
        · omega
        · omega

theorem data_lt
    (input : List Char) :
    ∀ v ∈ data input, v < 64 := by
  intro v hV
  obtain ⟨c, -, hC⟩ := List.mem_map.mp hV
  rw [← hC]
  exact sextet_lt c

theorem data_append (first rest : List Char) :
    data (first ++ rest) = data first ++ data rest := by
  rw [data, List.filter_append, List.map_append]
  rfl

theorem data_of_kept (input : List Char) :
    ((input.filter isKept).filter (· ≠ '=')).map sextet =
      data input := by
  have hKept :
      ∀ c : Char,
        (decide (c ≠ '=') && isKept c) = isBase64Alphabet c := by
    intro c
    by_cases hPad : c = '='
    · subst hPad
      rfl
    · simp [isKept, hPad]
  rw [List.filter_filter, List.filter_congr (fun c _ => hKept c)]
  rfl

/- What is read of the data characters that are counted. -/
theorem pythonB64decode_eq (input : List Char) :
    pythonB64decode input =
      if (data input).length % 4 = 1 then
        .error (oneMore (data input).length)
      else if
          ((data input).length % 4 = 2 ∨
            (data input).length % 4 = 3) ∧
          padRun input < 4 - (data input).length % 4 then
        .error incorrectPadding
      else
        .ok (read .first 0 (data input)) := by
  have hLength :
      ((input.filter isKept).filter (· ≠ '=')).length =
        (data input).length := by
    rw [← data_of_kept, List.length_map]
  have hDrain := drain_eq (data_lt input) .first 0
  change drain 0 0 _ = _ at hDrain
  simp only [pythonB64decode]
  rw [hLength, data_of_kept, hDrain]
  rfl

theorem filter_interspersed
    {clean noisy : List Char}
    (hNoisy : Interspersed clean noisy) :
    noisy.filter isKept = clean.filter isKept := by
  induction hNoisy with
  | nil => rfl
  | keep _ ih =>
      rw [List.filter_cons, List.filter_cons, ih]
  | noise hC _ ih =>
      rw [List.filter_cons_of_neg (by rw [hC]; exact Bool.noConfusion),
        ih]

/- What is put in between is not looked at. -/
theorem pythonB64decode_interspersed
    {clean noisy : List Char}
    (hNoisy : Interspersed clean noisy) :
    pythonB64decode noisy = pythonB64decode clean := by
  simp only [pythonB64decode]
  rw [filter_interspersed hNoisy]

theorem length_ofBytes (bytes : List UInt8) :
    (ofBytes bytes).length % 4 ≠ 1 := by
  induction bytes using ofBytes.induct with
  | case1 => exact Nat.zero_ne_one
  | case2 a => exact (by decide : 2 % 4 ≠ 1)
  | case3 a b => exact (by decide : 3 % 4 ≠ 1)
  | case4 a b c rest ih =>
      change ((ofBytes rest).length + 4) % 4 ≠ 1
      rw [Nat.add_mod_right]
      exact ih

theorem kept_base64Standard (bytes : List UInt8) :
    (base64Standard bytes).filter isKept =
      base64Standard bytes := by
  apply List.filter_eq_self.mpr
  intro c hC
  rw [base64Standard_groups, List.mem_append] at hC
  rcases hC with hSymbol | hPad
  · obtain ⟨v, hV, rfl⟩ := List.mem_map.mp hSymbol
    exact (isKept_of_alphabet
      (standard_table v (ofBytes_lt bytes v hV)).1).1
  · rw [List.eq_of_mem_replicate hPad]
    rfl

theorem data_base64Standard (bytes : List UInt8) :
    data (base64Standard bytes) = ofBytes bytes := by
  have hNone : data (padding (ofBytes bytes).length) = [] := by
    rw [data, padding, List.filter_replicate_of_neg]
    · rfl
    · exact Bool.noConfusion
  have hAll :
      ((ofBytes bytes).map (symbolOf standard)).filter
          isBase64Alphabet =
        (ofBytes bytes).map (symbolOf standard) := by
    apply List.filter_eq_self.mpr
    intro c hC
    obtain ⟨v, hV, rfl⟩ := List.mem_map.mp hC
    exact (standard_table v (ofBytes_lt bytes v hV)).1
  rw [base64Standard_groups, data_append, hNone, List.append_nil,
    data, hAll, List.map_map]
  conv_rhs => rw [← List.map_id (ofBytes bytes)]
  apply List.map_congr_left
  intro v hV
  exact (standard_table v (ofBytes_lt bytes v hV)).2.1

theorem le_padRun_base64Standard (bytes : List UInt8) :
    (padding (ofBytes bytes).length).length ≤
      padRun (base64Standard bytes) := by
  have hPads :
      ∀ c ∈ padding (ofBytes bytes).length,
        decide (c = '=') = true := by
    intro c hC
    exact decide_eq_true (List.eq_of_mem_replicate hC)
  rw [padRun, kept_base64Standard, base64Standard_groups,
    List.reverse_append, padding, List.reverse_replicate,
    ← padding, List.takeWhile_append_of_pos hPads,
    List.length_append]
  exact Nat.le_add_right _ _

theorem pythonB64decode_base64Standard
    (bytes : List UInt8) :
    pythonB64decode (base64Standard bytes) = .ok bytes := by
  have hMod := length_ofBytes bytes
  have hRun := le_padRun_base64Standard bytes
  rw [padding, List.length_replicate] at hRun
  rw [pythonB64decode_eq, data_base64Standard, read_ofBytes,
    if_neg hMod, if_neg]
  intro hShort
  omega

--------------------
-- The Reader's State
--------------------

/- A reader's state after a text. -/
structure Reads (input : List Char) (r : Reader) : Prop where
  place : count r.place = (data input).length % 4
  pads : 2 ≤ count r.place → r.pads = padRun input
  out :
    ∀ vs,
      r.out ++ read r.place r.held vs =
        read .first 0 (data input ++ vs)

theorem reads_nil :
    Reads [] Reader.start where
  place := rfl
  pads := by
    intro hCount
    cases hCount
  out _ := rfl

theorem data_concat
    (input : List Char)
    {c : Char}
    (hC : isBase64Alphabet c = true) :
    data (input ++ [c]) = data input ++ [sextet c] := by
  rw [data_append, data, data, List.filter_cons_of_pos hC]
  rfl

theorem data_concat_other
    (input : List Char)
    {c : Char}
    (hC : isBase64Alphabet c = false) :
    data (input ++ [c]) = data input := by
  rw [data_append, data, data, List.filter_cons, hC]
  exact List.append_nil _

theorem padRun_concat
    (input : List Char)
    (c : Char) :
    padRun (input ++ [c]) =
      if c = '=' then
        padRun input + 1
      else if isBase64Alphabet c then
        0
      else
        padRun input := by
  rw [padRun, padRun, List.filter_append, List.reverse_append]
  by_cases hPad : c = '='
  · subst hPad
    rw [if_pos rfl]
    rfl
  · rw [if_neg hPad]
    cases hC : isBase64Alphabet c with
    | true =>
        rw [if_pos rfl, List.filter_cons_of_pos
          (isKept_of_alphabet hC).1]
        rw [List.filter_nil, List.reverse_singleton,
          List.singleton_append,
          List.takeWhile_cons_of_neg
            (by rw [decide_eq_true_eq]; exact hPad)]
        rfl
    | false =>
        have hDropped : isKept c = false := by
          rw [isKept, hC, Bool.false_or]
          exact decide_eq_false hPad
        rw [if_neg Bool.noConfusion, List.filter_cons, hDropped]
        rfl

theorem count_next (place : Place) :
    count place.next = (count place + 1) % 4 := by
  cases place with
  | first | second | third | fourth => rfl

/- What one character does to a reader's state. -/
theorem reads_advance
    {input : List Char}
    {r : Reader}
    (hReads : Reads input r)
    (c : Char) :
    Reads (input ++ [c]) (r.advance c) := by
  by_cases hPad : c = '='
  · subst hPad
    have hData : data (input ++ ['=']) = data input :=
      data_concat_other input rfl
    have hRun : padRun (input ++ ['=']) = padRun input + 1 :=
      padRun_concat input '='
    rw [Reader.advance, if_pos rfl]
    by_cases hCount : 2 ≤ count r.place
    · rw [if_pos hCount]
      constructor
      · rw [hData]
        exact hReads.place
      · intro hInside
        rw [hRun, ← hReads.pads hInside]
      · rw [hData]
        exact hReads.out
    · rw [if_neg hCount]
      constructor
      · rw [hData]
        exact hReads.place
      · intro hInside
        exact absurd hInside hCount
      · rw [hData]
        exact hReads.out
  · have hRun := padRun_concat input c
    rw [if_neg hPad] at hRun
    rw [Reader.advance, if_neg hPad]
    cases hC : isBase64Alphabet c with
    | true =>
        rw [hC, if_pos rfl] at hRun
        rw [if_pos rfl]
        constructor
        · rw [data_concat input hC, count_next, hReads.place,
            List.length_append, List.length_singleton,
            Nat.mod_add_mod]
        · intro _
          exact hRun.symm
        · intro vs
          rw [data_concat input hC, List.append_assoc,
            List.append_assoc, List.singleton_append,
            ← hReads.out (sextet c :: vs)]
          rfl
    | false =>
        rw [hC, if_neg Bool.noConfusion] at hRun
        rw [if_neg Bool.noConfusion]
        constructor
        · rw [data_concat_other input hC]
          exact hReads.place
        · intro hInside
          rw [hRun]
          exact hReads.pads hInside
        · rw [data_concat_other input hC]
          exact hReads.out

theorem closes_iff
    {input : List Char}
    {r : Reader}
    (hReads : Reads input r) :
    r.Closes ↔ Closes input := by
  rw [Reader.Closes, Closes, ← hReads.place]
  constructor
  · intro hCloses
    rw [← hReads.pads hCloses.1]
    exact hCloses
  · intro hCloses
    rw [hReads.pads hCloses.1]
    exact hCloses

theorem out_eq
    {input : List Char}
    {r : Reader}
    (hReads : Reads input r) :
    r.out = read .first 0 (data input) := by
  have hOut := hReads.out []
  rw [List.append_nil] at hOut
  rw [← hOut, Sextets.read, List.append_nil]

--------------------
-- Runs of the Reader
--------------------

/- What a text is read as that no padding has ended. -/
def unclosed (input : List Char) : Except String (List UInt8) :=
  if (data input).length % 4 = 0 then
    .ok (read .first 0 (data input))
  else if (data input).length % 4 = 1 then
    .error (oneMore (data input).length)
  else
    .error incorrectPadding

theorem finish_eq
    {input : List Char}
    {r : Reader}
    (hReads : Reads input r) :
    r.finish = unclosed input := by
  have hOut := out_eq hReads
  have hPlace := hReads.place
  rw [Reader.finish, unclosed]
  cases hAt : r.place with
  | first =>
      rw [hAt] at hPlace
      rw [← hPlace, hOut]
      rfl
  | second =>
      have hLength := congrArg List.length hOut
      rw [length_read] at hLength
      rw [hAt] at hPlace
      have hCount :
          r.out.length / 3 * 4 + 1 = (data input).length := by
        change r.out.length = (data input).length * 3 / 4
          at hLength
        change 1 = _ at hPlace
        omega
      rw [← hPlace, ← hCount]
      rfl
  | third =>
      rw [hAt] at hPlace
      rw [← hPlace]
      rfl
  | fourth =>
      rw [hAt] at hPlace
      rw [← hPlace]
      rfl

/- The first padding of a text that completes a group. -/
structure ClosesFirst
    (before rest mid post : List Char) : Prop where
  split : rest = mid ++ '=' :: post
  closes : Closes (before ++ mid)
  first :
    ∀ mid' post',
      rest = mid' ++ '=' :: post' → Closes (before ++ mid') →
        mid.length ≤ mid'.length

/-
  A run ends at the first padding that completes a group, with
  what was read before it, or at the end of the text.
-/
theorem run_cases
    {before : List Char}
    {r : Reader}
    (hReads : Reads before r)
    (rest : List Char) :
    (∃ mid post,
      ClosesFirst before rest mid post ∧
        r.run rest = .ok (read .first 0 (data (before ++ mid)))) ∨
      (∀ mid post,
        rest = mid ++ '=' :: post → ¬ Closes (before ++ mid)) ∧
        r.run rest = unclosed (before ++ rest) := by
  induction rest generalizing before r with
  | nil =>
      right
      refine ⟨?_, ?_⟩
      · intro mid post hSplit
        cases mid with
        | nil => cases hSplit
        | cons _ _ => cases hSplit
      · rw [List.append_nil]
        exact finish_eq hReads
  | cons c rest ih =>
      rw [Reader.run]
      by_cases hEnds : c = '=' ∧ r.Closes
      · obtain ⟨hPad, hCloses⟩ := hEnds
        left
        refine ⟨[], rest, ?_, ?_⟩
        · constructor
          · rw [hPad]
            rfl
          · rw [List.append_nil]
            exact (closes_iff hReads).mp hCloses
          · intro mid' post' _ _
            exact Nat.zero_le _
        · rw [if_pos ⟨hPad, hCloses⟩, List.append_nil,
            out_eq hReads]
      · -- No split is at this character.
        have hLater :
            ∀ mid post,
              c :: rest = mid ++ '=' :: post →
                Closes (before ++ mid) →
                ∃ mid', mid = c :: mid' ∧
                  rest = mid' ++ '=' :: post := by
          intro mid post hSplit hCloses
          cases mid with
          | nil =>
              obtain ⟨hPad, -⟩ := List.cons.inj hSplit
              rw [List.append_nil] at hCloses
              exact absurd
                ⟨hPad, (closes_iff hReads).mpr hCloses⟩ hEnds
          | cons d mid' =>
              obtain ⟨hHead, hTail⟩ := List.cons.inj hSplit
              exact ⟨mid', by rw [hHead], hTail⟩
        have hShift :
            ∀ mid : List Char,
              before ++ [c] ++ mid = before ++ c :: mid := by
          intro mid
          rw [List.append_assoc, List.singleton_append]
        rw [if_neg hEnds]
        rcases ih (reads_advance hReads c) with
          ⟨mid, post, hFirst, hRun⟩ | ⟨hNever, hRun⟩
        · left
          refine ⟨c :: mid, post, ?_, ?_⟩
          · constructor
            · rw [hFirst.split]
              rfl
            · rw [← hShift]
              exact hFirst.closes
            · intro mid' post' hSplit hCloses
              obtain ⟨tail, hMid, hRest⟩ :=
                hLater mid' post' hSplit hCloses
              rw [hMid, ← hShift] at hCloses
              rw [hMid, List.length_cons, List.length_cons]
              exact Nat.succ_le_succ
                (hFirst.first tail post' hRest hCloses)
          · rw [hRun, hShift]
        · right
          refine ⟨?_, ?_⟩
          · intro mid post hSplit hCloses
            obtain ⟨tail, hMid, hRest⟩ :=
              hLater mid post hSplit hCloses
            rw [hMid, ← hShift] at hCloses
            exact hNever tail post hRest hCloses
          · rw [hRun, hShift]

theorem reference_cases (input : List Char) :
    (∃ mid post,
      ClosesFirst [] input mid post ∧
        reference input = .ok (read .first 0 (data mid))) ∨
      (∀ mid post, input = mid ++ '=' :: post → ¬ Closes mid) ∧
        reference input = unclosed input :=
  run_cases reads_nil input

--------------------
-- Agreement
--------------------

theorem data_split (before after : List Char) :
    data (before ++ '=' :: after) = data before ++ data after := by
  rw [data_append]
  rfl

/- Text without data after a padding only adds padding. -/
theorem padRun_append_of_data
    {before after : List Char}
    (hData : data after = []) :
    padRun before + 1 ≤ padRun (before ++ '=' :: after) := by
  induction after using List.reverseRecOn with
  | nil => exact (padRun_concat before '=').ge
  | append_singleton after c ih =>
      have hSplit :
          before ++ '=' :: (after ++ [c]) =
            before ++ '=' :: after ++ [c] := by
        rw [List.append_assoc]
        rfl
      rw [hSplit, padRun_concat]
      rw [data_append, List.append_eq_nil_iff] at hData
      have hBefore := ih hData.1
      by_cases hPad : c = '='
      · rw [if_pos hPad]
        exact Nat.le_succ_of_le hBefore
      · cases hC : isBase64Alphabet c with
        | true =>
            have hLast := hData.2
            rw [data, List.filter_cons_of_pos hC] at hLast
            cases hLast
        | false =>
            rw [if_neg hPad, if_neg Bool.noConfusion]
            exact hBefore

/- The last padding of a text that ends with one. -/
theorem exists_last_pad
    {input : List Char}
    (hRun : 0 < padRun input) :
    ∃ before after,
      input = before ++ '=' :: after ∧ data before = data input ∧
        padRun input = padRun before + 1 := by
  induction input using List.reverseRecOn with
  | nil => cases hRun
  | append_singleton input c ih =>
      rw [padRun_concat] at hRun ⊢
      by_cases hPad : c = '='
      · subst hPad
        exact ⟨input, [], rfl,
          (data_concat_other input rfl).symm, if_pos rfl⟩
      · cases hC : isBase64Alphabet c with
        | true =>
            rw [hC, if_neg hPad, if_pos rfl] at hRun
            cases hRun
        | false =>
            rw [hC, if_neg hPad, if_neg Bool.noConfusion] at hRun
            obtain ⟨before, after, hSplit, hData, hPads⟩ := ih hRun
            refine ⟨before, after ++ [c], ?_, ?_, ?_⟩
            · rw [hSplit, List.append_assoc]
              rfl
            · rw [data_concat_other input hC, hData]
            · rw [if_neg hPad, if_neg Bool.noConfusion, hPads]

theorem pythonB64decode_of_closes
    {before after : List Char}
    (hCloses : Closes before)
    (hData : data after = []) :
    pythonB64decode (before ++ '=' :: after) =
      .ok (read .first 0 (data before)) := by
  have hRun :
      padRun before + 1 ≤ padRun (before ++ '=' :: after) :=
    padRun_append_of_data hData
  obtain ⟨hInside, hEnough⟩ := hCloses
  rw [pythonB64decode_eq, data_split, hData, List.append_nil,
    if_neg (by omega), if_neg (by omega)]

theorem pythonB64decode_of_unclosed
    {input : List Char}
    (hNever :
      ∀ mid post, input = mid ++ '=' :: post → ¬ Closes mid) :
    pythonB64decode input = unclosed input := by
  rw [pythonB64decode_eq, unclosed]
  by_cases hFirst : (data input).length % 4 = 0
  · rw [if_neg (by omega), if_neg (by omega), if_pos hFirst]
  · by_cases hSecond : (data input).length % 4 = 1
    · rw [if_pos hSecond, if_neg hFirst, if_pos hSecond]
    · have hShort :
          padRun input < 4 - (data input).length % 4 := by
        by_contra hEnough
        have hRun : 0 < padRun input := by
          omega
        obtain ⟨before, after, hSplit, hData, hPads⟩ :=
          exists_last_pad hRun
        apply hNever before after hSplit
        rw [Closes, hData]
        omega
      rw [if_neg hSecond, if_pos (by omega), if_neg hFirst,
        if_neg hSecond]

/- Data after the padding is read on, or is an error. -/
theorem pythonB64decode_ne_of_data
    {before after : List Char}
    (hCloses : Closes before)
    (hData : data after ≠ []) :
    pythonB64decode (before ++ '=' :: after) ≠
      .ok (read .first 0 (data before)) := by
  have hMore := List.length_pos_iff.mpr hData
  have hInside := hCloses.1
  rw [pythonB64decode_eq]
  split
  · intro hSame
    cases hSame
  · split
    · intro hSame
      cases hSame
    · intro hSame
      have hLength := congrArg List.length (Except.ok.inj hSame)
      rw [length_read, length_read, data_split,
        List.length_append] at hLength
      change _ * 3 / 4 = _ * 3 / 4 at hLength
      have hLeft :
          (data before).length % 4 = 2 ∨
            (data before).length % 4 = 3 := by
        omega
      rcases hLeft with hTwo | hThree
      · omega
      · omega

/-
  The stand-in agrees where the text has no data after a
  padding that completes a group.
-/
theorem pythonB64decode_eq_reference_iff
    (input : List Char) :
    pythonB64decode input = reference input ↔
      EndsAtPadding input := by
  rcases reference_cases input with
    ⟨mid, post, hFirst, hReference⟩ | ⟨hNever, hReference⟩
  · have hSplit := hFirst.split
    rw [hReference, hSplit]
    constructor
    · intro hSame before after hOther hCloses
      have hPost : data post = [] := by
        by_contra hData
        exact pythonB64decode_ne_of_data hFirst.closes hData hSame
      -- The first such padding is not after this one.
      have hSuffix : '=' :: after <:+ '=' :: post := by
        have hLe := hFirst.first before after
          (hSplit.trans hOther) hCloses
        have hPost : '=' :: post <:+ before ++ '=' :: after := by
          rw [← hOther]
          exact List.suffix_append _ _
        have hTotal := congrArg List.length hOther
        rw [List.length_append, List.length_append] at hTotal
        exact List.suffix_of_suffix_length_le
          (List.suffix_append _ _) hPost (by omega)
      obtain ⟨skipped, hSkipped⟩ := hSuffix
      have hAll := congrArg data hSkipped
      rw [data_split] at hAll
      change data skipped ++ data after = data post at hAll
      rw [hPost, List.append_eq_nil_iff] at hAll
      exact hAll.2
    · intro hEnds
      exact pythonB64decode_of_closes hFirst.closes
        (hEnds mid post rfl hFirst.closes)
  · rw [hReference, pythonB64decode_of_unclosed hNever]
    constructor
    · intro _ before after hSplit hCloses
      exact absurd hCloses (hNever before after hSplit)
    · intro _
      rfl

/-
  Both decoders read back what was encoded, whatever is put in
  between for the lenient one, which agrees with its reference
  where no data follows the padding.
-/
theorem codecs_exact
    (bytes : List UInt8)
    (input : List Char) :
    (base64StandardDecode (base64Standard bytes) = some bytes ∧
        pythonB64decode (base64Standard bytes) = .ok bytes ∧
        ∀ noisy,
          Interspersed (base64Standard bytes) noisy →
            pythonB64decode noisy = .ok bytes) ∧
      (pythonB64decode input = reference input ↔
        EndsAtPadding input) := by
  refine ⟨⟨base64StandardDecode_base64Standard bytes,
    pythonB64decode_base64Standard bytes, ?_⟩,
    pythonB64decode_eq_reference_iff input⟩
  intro noisy hNoisy
  rw [pythonB64decode_interspersed hNoisy]
  exact pythonB64decode_base64Standard bytes

theorem codecs_exact_noisy :
    pythonB64decode "a!Gk=".toList = .ok [104, 105] :=
  (codecs_exact [104, 105] []).1.2.2 "a!Gk=".toList
    (.keep (.noise rfl (.keep (.keep (.keep .nil)))))

theorem not_agrees_after_padding :
    pythonB64decode "YQ==YQ==".toList = .ok [97, 6, 16] ∧
      reference "YQ==YQ==".toList = .ok [97] ∧
      ¬ ∀ input, pythonB64decode input = reference input := by
  have hCode :
      pythonB64decode "YQ==YQ==".toList = .ok [97, 6, 16] := rfl
  have hReference :
      reference "YQ==YQ==".toList = .ok [97] := rfl
  refine ⟨hCode, hReference, ?_⟩
  intro hAll
  have hSame := hAll "YQ==YQ==".toList
  rw [hCode, hReference] at hSame
  cases hSame

end Base64

end SentinelCommand
