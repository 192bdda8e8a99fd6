import SentinelCommand.Lib.Panics
import SentinelCommand.Lib.Utf8

/-
  Where a body stops being UTF-8, in the words of the
  interpreter the clients were written against.

  Key definitions include:
    * `PyCodec.leadOf`
    * `PyCodec.continuations`

  Key theorems include:
    * `PyCodec.row_eq_leadOf`
    * `PyCodec.findError_exact`
-/

namespace SentinelCommand

namespace PyCodec

open Panics Utf8

--------------------
-- The Decoder
--------------------

def invalidStart : List Char :=
  "invalid start byte".toList

def invalidContinuation : List Char :=
  "invalid continuation byte".toList

def truncated : List Char :=
  "unexpected end of data".toList

/- What the lead byte calls for. -/
inductive Lead where
  | single
  | multi (needed : Nat) (firstRange : Nat × Nat)
  | invalid
deriving DecidableEq, Repr

def leadOf (lead : UInt8) : Lead :=
  let b := lead.toNat
  if b ≤ 0x7f then .single
  else if 0xc2 ≤ b ∧ b ≤ 0xdf then .multi 1 (0x80, 0xbf)
  else if b = 0xe0 then .multi 2 (0xa0, 0xbf)
  else if 0xe1 ≤ b ∧ b ≤ 0xec ∨ 0xee ≤ b ∧ b ≤ 0xef then
    .multi 2 (0x80, 0xbf)
  else if b = 0xed then .multi 2 (0x80, 0x9f)
  else if b = 0xf0 then .multi 3 (0x90, 0xbf)
  else if 0xf1 ≤ b ∧ b ≤ 0xf3 then .multi 3 (0x80, 0xbf)
  else if b = 0xf4 then .multi 3 (0x80, 0x8f)
  else .invalid

/- The bounds of the continuation byte a step looks at. -/
def rangeAt (firstRange : Nat × Nat) (step : Nat) : Nat × Nat :=
  if step = 1 then firstRange else (0x80, 0xbf)

/-
  The loop over `1..=needed`, with `left` of its steps to go:
  nothing where every byte was there and in its range.
-/
def continuations
    (bytes : List UInt8)
    (i : Nat)
    (firstRange : Nat × Nat) :
    Nat → Nat → Option (Nat × Nat × List Char)
| _, 0 => none
| step, left + 1 =>
    match bytes[i + step]? with
    | none => some (i, bytes.length, truncated)
    | some byte =>
        let range := rangeAt firstRange step
        if range.1 ≤ byte.toNat ∧ byte.toNat ≤ range.2 then
          continuations bytes i firstRange (step + 1) left
        else
          some (i, i + step, invalidContinuation)

/- The loop over the bytes from an index on. -/
def findFrom
    (bytes : List UInt8)
    (i : Nat) : Option (Nat × Nat × List Char) :=
  if hIndex : i < bytes.length then
    match leadOf bytes[i] with
    | .single => findFrom bytes (i + 1)
    | .invalid => some (i, i + 1, invalidStart)
    | .multi needed firstRange =>
        match continuations bytes i firstRange 1 needed with
        | some error => some error
        | none => findFrom bytes (i + (needed + 1))
  else
    none
termination_by bytes.length - i

def findError
    (bytes : List UInt8) : Option (Nat × Nat × List Char) :=
  findFrom bytes 0

/- `{:02x}`. -/
def lowerHex (byte : UInt8) : List Char :=
  [Nat.digitChar (byte.toNat / 16),
    Nat.digitChar (byte.toNat % 16)]

/- A single byte is shown; a longer part is only located. -/
def formatError
    (bytes : List UInt8)
    (start stop : Nat)
    (reason : List Char) : Res Empty (List Char) := do
  if stop = start + 1 then
    let byte ← expect bytes[start]?
    .ok ("'utf-8' codec can't decode byte 0x".toList ++
      lowerHex byte ++ " in position ".toList ++
      Nat.toDigits 10 start ++ ": ".toList ++ reason)
  else
    let last ← sub stop 1
    .ok ("'utf-8' codec can't decode bytes in position ".toList ++
      Nat.toDigits 10 start ++ '-' :: Nat.toDigits 10 last ++
      ": ".toList ++ reason)

def utf8DecodeError
    (bytes : List UInt8) : Res Empty (Option (List Char)) :=
  match findError bytes with
  | none => .ok none
  | some (start, stop, reason) =>
      some <$> formatError bytes start stop reason

--------------------
-- One Sequence
--------------------

/- The source's table is the standard's. -/
theorem row_eq_leadOf (lead : UInt8) :
    row lead =
      match leadOf lead with
      | .single => some (0, 0x80, 0xbf)
      | .multi needed firstRange =>
          some (needed, firstRange.1, firstRange.2)
      | .invalid => none := by
  have hByte : lead.toNat < 256 := lead.toNat_lt
  unfold leadOf
  dsimp only
  split_ifs with hSingle hTwo hLeast hThree hScalar hFour hMore hMost
  case neg =>
    by_cases hTrail : lead.toNat < 0xc2
    · rw [row, if_neg (by omega), if_pos hTrail]
    · rw [row, if_neg (by omega), if_neg hTrail,
        if_neg (by omega), if_neg (by omega),
        if_neg (by omega)]
  all_goals
    simp (disch := omega) only [row, if_neg, if_pos]

theorem rangeAt_succ
    (firstRange : Nat × Nat)
    {step : Nat}
    (hStep : 0 < step) :
    rangeAt firstRange (step + 1) = (0x80, 0xbf) :=
  if_neg (by omega)

theorem trails_of_continuations
    {bytes : List UInt8}
    {i step left : Nat}
    {firstRange : Nat × Nat}
    (hStep : 0 < step)
    (hNone : continuations bytes i firstRange step left = none) :
    Trails left (rangeAt firstRange step).1
      (rangeAt firstRange step).2
      ((bytes.drop (i + step)).take left) := by
  induction left generalizing step with
  | zero => rw [List.take_zero, Trails]
  | succ left ih =>
      rw [continuations] at hNone
      split at hNone
      · cases hNone
      · rename_i byte hByte
        dsimp only at hNone
        rw [List.getElem?_eq_some_iff] at hByte
        rcases hByte with ⟨hLength, rfl⟩
        split_ifs at hNone with hRange
        have hRest := ih (by omega) hNone
        rw [rangeAt_succ firstRange hStep] at hRest
        rw [List.drop_eq_getElem_cons hLength,
          List.take_succ_cons]
        exact ⟨hRange.1, hRange.2, hRest⟩

/-
  An error inside a sequence is `count` good continuation
  bytes in: the input ends there, or the next one is wrong.
-/
theorem begun_of_continuations
    {bytes : List UInt8}
    {i step left start stop : Nat}
    {firstRange : Nat × Nat}
    {reason : List Char}
    (hStep : 0 < step)
    (hInside : i + step ≤ bytes.length)
    (hSome :
      continuations bytes i firstRange step left =
        some (start, stop, reason)) :
    start = i ∧
      ∃ count, count < left ∧ stop = i + step + count ∧
        stop ≤ bytes.length ∧
        Begun left (rangeAt firstRange step).1
          (rangeAt firstRange step).2
          ((bytes.drop (i + step)).take count) ∧
        (stop = bytes.length ∨
          ¬Begun left (rangeAt firstRange step).1
            (rangeAt firstRange step).2
            ((bytes.drop (i + step)).take (count + 1))) := by
  induction left generalizing step with
  | zero => exact absurd hSome nofun
  | succ left ih =>
      rw [continuations] at hSome
      split at hSome
      · rename_i hEnd
        rw [List.getElem?_eq_none_iff] at hEnd
        cases hSome
        refine ⟨rfl, 0, by omega, by omega, by omega, ?_,
          Or.inl rfl⟩
        rw [List.take_zero]
        exact begun_nil _ _ _
      · rename_i byte hByte
        dsimp only at hSome
        rw [List.getElem?_eq_some_iff] at hByte
        rcases hByte with ⟨hLength, rfl⟩
        rw [List.drop_eq_getElem_cons hLength]
        split_ifs at hSome with hRange
        · rcases ih (by omega) (by omega) hSome with
            ⟨hStart, count, hCount, hStop, hLe, hBegun, hEnd⟩
          rw [rangeAt_succ firstRange hStep] at hBegun hEnd
          refine ⟨hStart, count + 1, by omega, by omega, hLe,
            ?_, ?_⟩
          · rw [List.take_succ_cons]
            exact ⟨hRange.1, hRange.2, hBegun⟩
          · rcases hEnd with hEnd | hWrong
            · exact Or.inl hEnd
            · rw [List.take_succ_cons]
              exact Or.inr (fun h => hWrong h.2.2)
        · cases hSome
          refine ⟨rfl, 0, by omega, by omega, by omega, ?_, ?_⟩
          · rw [List.take_zero]
            exact begun_nil _ _ _
          · rw [List.take_succ_cons]
            exact Or.inr (fun h => hRange ⟨h.1, h.2.1⟩)

--------------------
-- The Whole Input
--------------------

/- What an error report locates. -/
structure Located
    (bytes : List UInt8)
    (start stop : Nat) : Prop where
  nonempty : start < stop
  inside : stop ≤ bytes.length
  before : WellFormed (bytes.take start)
  subpart : MaximalSubpart (bytes.drop start) (stop - start)
  stuck : Unconvertible (bytes.drop start)

theorem wellFormed_take_add
    {bytes : List UInt8}
    {i count : Nat}
    (hBefore : WellFormed (bytes.take i))
    (hNext : WellFormed ((bytes.drop i).take count)) :
    WellFormed (bytes.take (i + count)) := by
  rw [List.take_add]
  exact hBefore.append hNext

theorem findFrom_spec
    {bytes : List UInt8}
    {i : Nat}
    (hBefore : WellFormed (bytes.take i)) :
    match findFrom bytes i with
    | none => WellFormed bytes
    | some (start, stop, _) => Located bytes start stop := by
  induction i using findFrom.induct bytes with
  | case1 i hIndex hLead ih =>
      have hRow := row_eq_leadOf bytes[i]
      rw [hLead] at hRow
      have hDrop := List.drop_eq_getElem_cons hIndex
      rw [findFrom, dif_pos hIndex, hLead]
      apply ih
      apply wellFormed_take_add hBefore
      rw [hDrop, List.take_succ_cons]
      exact wellFormed_of_row hRow rfl
  | case2 i hIndex hLead =>
      have hRow := row_eq_leadOf bytes[i]
      rw [hLead] at hRow
      have hDrop := List.drop_eq_getElem_cons hIndex
      rw [findFrom, dif_pos hIndex, hLead]
      refine ⟨Nat.lt_succ_self i, hIndex, hBefore, ?_, ?_⟩
      · rw [hDrop, Nat.add_sub_cancel_left]
        exact maximalSubpart_lead hRow _
      · rw [hDrop]
        exact unconvertible_lead hRow _
  | case3 i hIndex needed firstRange hLead error hError =>
      rcases error with ⟨start, stop, reason⟩
      have hRow := row_eq_leadOf bytes[i]
      rw [hLead] at hRow
      have hDrop := List.drop_eq_getElem_cons hIndex
      rw [findFrom, dif_pos hIndex, hLead]
      dsimp only
      rw [hError]
      rcases begun_of_continuations Nat.one_pos hIndex hError
        with ⟨rfl, count, hCount, rfl, hStop, hBegun, hEnd⟩
      have hEnd' :
          (bytes.drop (start + 1)).length = count ∨
            ¬Begun needed firstRange.1 firstRange.2
              ((bytes.drop (start + 1)).take (count + 1)) := by
        rcases hEnd with hEnd | hWrong
        · rw [List.length_drop]
          exact Or.inl (by omega)
        · exact Or.inr hWrong
      refine ⟨by omega, hStop, hBefore, ?_, ?_⟩
      · rw [hDrop, Nat.add_assoc, Nat.add_sub_cancel_left,
          Nat.add_comm 1 count]
        refine maximalSubpart_cut hRow hCount ?_ hBegun hEnd'
        rw [List.length_drop]
        omega
      · rw [hDrop]
        exact unconvertible_cut hRow hCount hEnd'
  | case4 i hIndex needed firstRange hLead hNone ih =>
      have hRow := row_eq_leadOf bytes[i]
      rw [hLead] at hRow
      have hDrop := List.drop_eq_getElem_cons hIndex
      rw [findFrom, dif_pos hIndex, hLead]
      dsimp only
      rw [hNone]
      apply ih
      apply wellFormed_take_add hBefore
      rw [hDrop, List.take_succ_cons]
      exact wellFormed_of_row hRow
        (trails_of_continuations Nat.one_pos hNone)
  | case5 i hIndex =>
      rw [findFrom, dif_neg hIndex]
      rw [List.take_of_length_le (by omega)] at hBefore
      exact hBefore

theorem Located.illFormed
    {bytes : List UInt8}
    {start stop : Nat}
    (hLocated : Located bytes start stop) :
    ¬WellFormed bytes := by
  intro hFormed
  have hSplit := List.take_append_drop start bytes
  rw [← hSplit] at hFormed
  have hRest :=
    wellFormed_of_append hLocated.before hFormed
  refine hLocated.stuck _ (List.prefix_refl _) ?_ hRest
  intro hNil
  have hLength := congrArg List.length hNil
  rw [List.length_drop, List.length_nil] at hLength
  have hStop := hLocated.inside
  have hStart := hLocated.nonempty
  omega

theorem findError_exact (bytes : List UInt8) :
    (findError bytes = none ↔ WellFormed bytes) ∧
      ∀ start stop reason,
        findError bytes = some (start, stop, reason) →
          start < stop ∧ stop ≤ bytes.length ∧
            WellFormed (bytes.take start) ∧
            MaximalSubpart (bytes.drop start)
              (stop - start) := by
  have hSpec := findFrom_spec
    (show WellFormed (bytes.take 0) from wellFormed_nil)
  rw [← findError] at hSpec
  constructor
  · constructor
    · intro hNone
      rw [hNone] at hSpec
      exact hSpec
    · intro hFormed
      cases hFound : findError bytes with
      | none => rfl
      | some error =>
          rw [hFound] at hSpec
          exact absurd hFormed hSpec.illFormed
  · intro start stop reason hFound
    rw [hFound] at hSpec
    exact ⟨hSpec.nonempty, hSpec.inside, hSpec.before,
      hSpec.subpart⟩

/- A euro sign whose last byte is not a continuation. -/
theorem findError_exact_euro :
    let bytes : List UInt8 := [0x61, 0xe2, 0x82, 0x28]
    findError bytes = some (1, 3, invalidContinuation) ∧
      WellFormed (bytes.take 1) ∧
      MaximalSubpart (bytes.drop 1) 2 := by
  intro bytes
  have hFound :
      findError bytes = some (1, 3, invalidContinuation) := by
    simp [bytes, findError, findFrom, leadOf, continuations,
      rangeAt]
  rcases (findError_exact bytes).2 1 3 _ hFound with
    ⟨_, _, hBefore, hSubpart⟩
  exact ⟨hFound, hBefore, hSubpart⟩

/- The report never indexes past the body. -/
theorem utf8DecodeError_spec (bytes : List UInt8) :
    ∃ answer,
      utf8DecodeError bytes = .ok answer ∧
        (answer = none ↔ WellFormed bytes) := by
  have hSpec := findFrom_spec
    (show WellFormed (bytes.take 0) from wellFormed_nil)
  rw [← findError] at hSpec
  rw [utf8DecodeError]
  cases hFound : findError bytes with
  | none =>
      rw [hFound] at hSpec
      exact ⟨none, rfl, iff_of_true rfl hSpec⟩
  | some error =>
      rcases error with ⟨start, stop, reason⟩
      rw [hFound] at hSpec
      have hIndex : start < bytes.length := by
        have hNonempty := hSpec.nonempty
        have hInside := hSpec.inside
        omega
      have hSome :
          ∃ text, formatError bytes start stop reason =
            .ok text := by
        rw [formatError]
        split
        · rw [List.getElem?_eq_getElem hIndex]
          exact ⟨_, rfl⟩
        · have hPos := hSpec.nonempty
          rw [sub, if_pos (by omega)]
          exact ⟨_, rfl⟩
      rcases hSome with ⟨text, hText⟩
      refine ⟨some text, ?_,
        iff_of_false (Option.some_ne_none text) hSpec.illFormed⟩
      dsimp only
      rw [hText]
      rfl

end PyCodec

end SentinelCommand
