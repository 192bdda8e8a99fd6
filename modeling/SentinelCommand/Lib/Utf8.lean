import Mathlib.Data.Nat.Init
import Mathlib.Data.List.Basic

/-
  UTF-8: the bytes of a text, and what may begin them.

  Key definitions include:
    * `Utf8.encode`, `Utf8.decode`
    * `Utf8.WellFormed`, `Utf8.Opens`
    * `Utf8.row`, `Utf8.Trails`, `Utf8.Begun`
    * `Utf8.MaximalSubpart`, `Utf8.Unconvertible`

  Key theorems include:
    * `Utf8.wellFormed_cons`, `Utf8.opens_cons`
    * `Utf8.wellFormed_of_append`
    * `Utf8.maximalSubpart_lead`, `Utf8.maximalSubpart_cut`
-/

namespace Utf8

/- The bytes of a text. -/
def encode (text : List Char) : List UInt8 :=
  text.flatMap String.utf8EncodeChar

def WellFormed (bytes : List UInt8) : Prop :=
  ∃ text, encode text = bytes

/- The initial bytes of some well-formed sequence. -/
def Opens (bytes : List UInt8) : Prop :=
  ∃ rest, WellFormed (bytes ++ rest)

/-
  What a decoder should replace as one unit where no
  character begins: the longest part there that opens a
  well-formed sequence, or else a single byte.
-/
structure MaximalSubpart
    (bytes : List UInt8)
    (count : Nat) : Prop where
  pos : 0 < count
  le : count ≤ bytes.length
  opens :
    Opens (bytes.take count) ∨
      count = 1 ∧ ¬Opens (bytes.take 1)
  longest :
    ∀ more, count < more → more ≤ bytes.length →
      ¬Opens (bytes.take more)

/- No character is encoded there. -/
def Unconvertible (bytes : List UInt8) : Prop :=
  ∀ part, part <+: bytes → part ≠ [] → ¬WellFormed part

--------------------
-- The Table Of Well-Formed Byte Sequences
--------------------

/-
  How many bytes follow a lead byte, and the least and the
  greatest that the first of them may be.
-/
def row (lead : UInt8) : Option (Nat × Nat × Nat) :=
  if lead.toNat < 0x80 then
    some (0, 0x80, 0xbf)
  else if lead.toNat < 0xc2 then
    none
  else if lead.toNat < 0xe0 then
    some (1, 0x80, 0xbf)
  else if lead.toNat < 0xf0 then
    some (2, if lead.toNat = 0xe0 then 0xa0 else 0x80,
      if lead.toNat = 0xed then 0x9f else 0xbf)
  else if lead.toNat < 0xf5 then
    some (3, if lead.toNat = 0xf0 then 0x90 else 0x80,
      if lead.toNat = 0xf4 then 0x8f else 0xbf)
  else
    none

/- Exactly the bytes still owed. -/
def Trails : Nat → Nat → Nat → List UInt8 → Prop
| 0, _, _, bytes => bytes = []
| _ + 1, _, _, [] => False
| count + 1, low, high, byte :: rest =>
    low ≤ byte.toNat ∧ byte.toNat ≤ high ∧
      Trails count 0x80 0xbf rest

/- As far as the bytes reach, they are the ones owed. -/
def Begun : Nat → Nat → Nat → List UInt8 → Prop
| 0, _, _, _ => True
| _ + 1, _, _, [] => True
| count + 1, low, high, byte :: rest =>
    low ≤ byte.toNat ∧ byte.toNat ≤ high ∧
      Begun count 0x80 0xbf rest

theorem begun_nil
    (count : Nat)
    (low high : Nat) :
    Begun count low high [] := by
  cases count with
  | zero => trivial
  | succ count => trivial

theorem length_of_trails
    {count : Nat}
    {low high : Nat}
    {bytes : List UInt8}
    (hTrails : Trails count low high bytes) :
    bytes.length = count := by
  induction count generalizing low high bytes with
  | zero =>
      rw [Trails] at hTrails
      rw [hTrails, List.length_nil]
  | succ count ih =>
      cases bytes with
      | nil => exact absurd hTrails (by simp [Trails])
      | cons byte rest =>
          rw [List.length_cons, ih hTrails.2.2]

theorem begun_of_trails
    {count : Nat}
    {low high : Nat}
    {owed : List UInt8}
    (hTrails : Trails count low high owed)
    {bytes : List UInt8}
    (hJoin : bytes <+: owed ∨ owed <+: bytes) :
    Begun count low high bytes := by
  induction count generalizing low high owed bytes with
  | zero => trivial
  | succ count ih =>
      cases owed with
      | nil => exact absurd hTrails (by simp [Trails])
      | cons byte rest =>
          cases bytes with
          | nil => trivial
          | cons first others =>
              simp only [List.cons_prefix_cons] at hJoin
              have hFirst : first = byte := by
                rcases hJoin with h | h
                · exact h.1
                · exact h.1.symm
              have hRest : others <+: rest ∨ rest <+: others := by
                rcases hJoin with h | h
                · exact Or.inl h.2
                · exact Or.inr h.2
              rw [hFirst]
              exact ⟨hTrails.1, hTrails.2.1,
                ih hTrails.2.2 hRest⟩

theorem exists_trails
    (count : Nat)
    {low high : Nat}
    (hRange : low ≤ high)
    (hHigh : high < 256) :
    ∃ owed, Trails count low high owed := by
  induction count generalizing low high with
  | zero => exact ⟨[], rfl⟩
  | succ count ih =>
      rcases ih (show 0x80 ≤ 0xbf by omega) (by omega) with
        ⟨rest, hRest⟩
      have hLow : (UInt8.ofNat low).toNat = low :=
        UInt8.toNat_ofNat_of_lt (by
          rw [show UInt8.size = 256 from rfl]; omega)
      refine ⟨UInt8.ofNat low :: rest, ?_, ?_, hRest⟩
      · exact Nat.le_of_eq hLow.symm
      · rw [hLow]
        exact hRange

/- Bytes that have begun well can be completed. -/
theorem trails_of_begun
    {count : Nat}
    {low high : Nat}
    (hRange : low ≤ high)
    (hHigh : high < 256)
    {bytes : List UInt8}
    (hLength : bytes.length ≤ count)
    (hBegun : Begun count low high bytes) :
    ∃ rest, Trails count low high (bytes ++ rest) := by
  induction count generalizing low high bytes with
  | zero =>
      have hNil : bytes = [] :=
        List.length_eq_zero_iff.mp (by omega)
      exact ⟨[], by rw [hNil]; rfl⟩
  | succ count ih =>
      cases bytes with
      | nil =>
          rcases exists_trails (count + 1) hRange hHigh with
            ⟨owed, hOwed⟩
          exact ⟨owed, hOwed⟩
      | cons byte others =>
          rw [List.length_cons] at hLength
          rcases ih (show 0x80 ≤ 0xbf by omega) (by omega)
            (by omega) hBegun.2.2 with ⟨rest, hRest⟩
          exact ⟨rest, hBegun.1, hBegun.2.1, hRest⟩

theorem row_range
    {lead : UInt8}
    {count low high : Nat}
    (hRow : row lead = some (count, low, high)) :
    low ≤ high ∧ high < 256 := by
  unfold row at hRow
  grind

--------------------
-- Characters
--------------------

theorem toNat_ofNat
    {n : Nat}
    (hByte : n < 256) :
    (UInt8.ofNat n).toNat = n :=
  UInt8.toNat_ofNat_of_lt hByte

/- Every character's bytes are a row of the table. -/
theorem row_of_encodeChar (c : Char) :
    ∃ lead rest count low high,
      String.utf8EncodeChar c = lead :: rest ∧
        row lead = some (count, low, high) ∧
        Trails count low high rest := by
  have hValid :
      c.val.toNat < 0xd800 ∨
        0xdfff < c.val.toNat ∧ c.val.toNat < 0x110000 :=
    c.valid
  fun_cases String.utf8EncodeChar c with
  | case1 v hOne =>
      refine ⟨_, _, 0, 0x80, 0xbf, rfl, ?_, rfl⟩
      rw [row, toNat_ofNat (by omega), if_pos (by omega)]
  | case2 v hOne hTwo =>
      refine ⟨_, _, 1, 0x80, 0xbf, rfl, ?_, ?_⟩
      · rw [row, toNat_ofNat (by omega), if_neg (by omega),
          if_neg (by omega), if_pos (by omega)]
      · rw [Trails, Trails, toNat_ofNat (by omega)]
        exact ⟨by omega, by omega, rfl⟩
  | case3 v hOne hTwo hThree =>
      refine ⟨_, _, 2,
        if v / 4096 % 16 + 224 = 0xe0 then 0xa0 else 0x80,
        if v / 4096 % 16 + 224 = 0xed then 0x9f else 0xbf,
        rfl, ?_, ?_⟩
      · rw [row, toNat_ofNat (by omega), if_neg (by omega),
          if_neg (by omega), if_neg (by omega),
          if_pos (by omega)]
      · rw [Trails, Trails, Trails, toNat_ofNat (by omega),
          toNat_ofNat (by omega)]
        refine ⟨?_, ?_, by omega, by omega, rfl⟩
        · split_ifs with hEdge
          · omega
          · omega
        · split_ifs with hEdge
          · omega
          · omega
  | case4 v hOne hTwo hThree =>
      refine ⟨_, _, 3,
        if v / 262144 % 8 + 240 = 0xf0 then 0x90 else 0x80,
        if v / 262144 % 8 + 240 = 0xf4 then 0x8f else 0xbf,
        rfl, ?_, ?_⟩
      · rw [row, toNat_ofNat (by omega), if_neg (by omega),
          if_neg (by omega), if_neg (by omega),
          if_neg (by omega), if_pos (by omega)]
      · rw [Trails, Trails, Trails, Trails,
          toNat_ofNat (by omega), toNat_ofNat (by omega),
          toNat_ofNat (by omega)]
        refine ⟨?_, ?_, by omega, by omega, by omega,
          by omega, rfl⟩
        · split_ifs with hEdge
          · omega
          · omega
        · split_ifs with hEdge
          · omega
          · omega

/- The character a number names. -/
theorem exists_char
    (n : Nat)
    (hScalar : n < 0xd800 ∨ 0xdfff < n ∧ n < 0x110000) :
    ∃ c : Char, c.val.toNat = n := by
  exact ⟨Char.ofNatAux n hScalar, rfl⟩

theorem ofNat_eq
    {n : Nat}
    (byte : UInt8)
    (hByte : n = byte.toNat) :
    UInt8.ofNat n = byte := by
  rw [hByte, UInt8.ofNat_toNat]

theorem trails_succ
    {count low high : Nat}
    {bytes : List UInt8}
    (hTrails : Trails (count + 1) low high bytes) :
    ∃ byte rest,
      bytes = byte :: rest ∧ low ≤ byte.toNat ∧
        byte.toNat ≤ high ∧ Trails count 0x80 0xbf rest := by
  cases bytes with
  | nil => exact absurd hTrails (by simp [Trails])
  | cons byte rest => exact ⟨byte, rest, rfl, hTrails⟩

theorem encodeChar_two
    {lead next : UInt8}
    (hLead : 0xc2 ≤ lead.toNat ∧ lead.toNat < 0xe0)
    (hNext : 0x80 ≤ next.toNat ∧ next.toNat ≤ 0xbf) :
    ∃ c, String.utf8EncodeChar c = [lead, next] := by
  rcases exists_char
    ((lead.toNat - 0xc0) * 64 + (next.toNat - 0x80))
    (by omega) with ⟨c, hValue⟩
  refine ⟨c, ?_⟩
  rw [String.utf8EncodeChar]
  rw [if_neg (by omega), if_pos (by omega),
    ofNat_eq lead (by omega),
    ofNat_eq next (by omega)]

theorem encodeChar_three
    {lead next last : UInt8}
    (hLead : 0xe0 ≤ lead.toNat ∧ lead.toNat < 0xf0)
    (hNext : 0x80 ≤ next.toNat ∧ next.toNat ≤ 0xbf)
    (hLeast : lead.toNat = 0xe0 → 0xa0 ≤ next.toNat)
    (hScalar : lead.toNat = 0xed → next.toNat ≤ 0x9f)
    (hLast : 0x80 ≤ last.toNat ∧ last.toNat ≤ 0xbf) :
    ∃ c, String.utf8EncodeChar c = [lead, next, last] := by
  rcases exists_char
    ((lead.toNat - 0xe0) * 4096 +
      (next.toNat - 0x80) * 64 + (last.toNat - 0x80))
    (by omega) with ⟨c, hValue⟩
  refine ⟨c, ?_⟩
  rw [String.utf8EncodeChar]
  rw [if_neg (by omega), if_neg (by omega),
    if_pos (by omega), ofNat_eq lead (by omega),
    ofNat_eq next (by omega),
    ofNat_eq last (by omega)]

theorem encodeChar_four
    {lead next third last : UInt8}
    (hLead : 0xf0 ≤ lead.toNat ∧ lead.toNat < 0xf5)
    (hNext : 0x80 ≤ next.toNat ∧ next.toNat ≤ 0xbf)
    (hLeast : lead.toNat = 0xf0 → 0x90 ≤ next.toNat)
    (hMost : lead.toNat = 0xf4 → next.toNat ≤ 0x8f)
    (hThird : 0x80 ≤ third.toNat ∧ third.toNat ≤ 0xbf)
    (hLast : 0x80 ≤ last.toNat ∧ last.toNat ≤ 0xbf) :
    ∃ c, String.utf8EncodeChar c =
      [lead, next, third, last] := by
  rcases exists_char
    ((lead.toNat - 0xf0) * 262144 +
      (next.toNat - 0x80) * 4096 +
      (third.toNat - 0x80) * 64 + (last.toNat - 0x80))
    (by omega) with ⟨c, hValue⟩
  refine ⟨c, ?_⟩
  rw [String.utf8EncodeChar]
  rw [if_neg (by omega), if_neg (by omega),
    if_neg (by omega), ofNat_eq lead (by omega),
    ofNat_eq next (by omega),
    ofNat_eq third (by omega),
    ofNat_eq last (by omega)]

/- Every row of the table is some character's bytes. -/
theorem encodeChar_of_row
    {lead : UInt8}
    {count low high : Nat}
    (hRow : row lead = some (count, low, high))
    {rest : List UInt8}
    (hTrails : Trails count low high rest) :
    ∃ c, String.utf8EncodeChar c = lead :: rest := by
  unfold row at hRow
  split at hRow
  · rename_i hOne
    cases hRow
    rw [Trails] at hTrails
    subst hTrails
    rcases exists_char lead.toNat (by omega) with
      ⟨c, hValue⟩
    refine ⟨c, ?_⟩
    rw [String.utf8EncodeChar, if_pos (by omega),
      ofNat_eq lead hValue]
  · split at hRow
    · exact absurd hRow nofun
    · split at hRow
      · cases hRow
        rcases trails_succ hTrails with
          ⟨next, _, rfl, hLow, hHigh, rfl⟩
        exact encodeChar_two (by omega) ⟨hLow, hHigh⟩
      · split at hRow
        · cases hRow
          rcases trails_succ hTrails with
            ⟨next, _, rfl, hLow, hHigh, hMore⟩
          rcases trails_succ hMore with
            ⟨last, _, rfl, hLast, hLast', rfl⟩
          split at hLow
          all_goals split at hHigh
          all_goals
            exact encodeChar_three (by omega) (by omega)
              (by omega) (by omega) (by omega)
        · split at hRow
          · cases hRow
            rcases trails_succ hTrails with
              ⟨next, _, rfl, hLow, hHigh, hMore⟩
            rcases trails_succ hMore with
              ⟨third, _, rfl, hThird, hThird', hEnd⟩
            rcases trails_succ hEnd with
              ⟨last, _, rfl, hLast, hLast', rfl⟩
            split at hLow
            all_goals split at hHigh
            all_goals
              exact encodeChar_four (by omega) (by omega)
                (by omega) (by omega) (by omega) (by omega)
          · exact absurd hRow nofun

--------------------
-- Texts
--------------------

/- The text that bytes encode. -/
def decode (bytes : List UInt8) : Option (List Char) :=
  (String.fromUTF8? bytes.toByteArray).map String.toList

theorem encode_append
    (xs ys : List Char) :
    encode (xs ++ ys) = encode xs ++ encode ys := by
  rw [encode, encode, encode, List.flatMap_append]

theorem decode_eq_some_iff
    {bytes : List UInt8}
    {text : List Char} :
    decode bytes = some text ↔ encode text = bytes := by
  have hOfList :
      (String.ofList text).toByteArray =
        (encode text).toByteArray :=
    String.toByteArray_ofList
  rw [decode, String.fromUTF8?, Option.map_eq_some_iff]
  constructor
  · rintro ⟨s, hSome, rfl⟩
    split_ifs at hSome with hValid
    cases hSome
    rw [String.ofList_toList] at hOfList
    exact List.toByteArray_inj.mp hOfList.symm
  · intro hBytes
    rw [hBytes] at hOfList
    have hValid : bytes.toByteArray.IsValidUTF8 := by
      rw [← hOfList]
      exact (String.ofList text).isValidUTF8
    refine ⟨String.fromUTF8 bytes.toByteArray hValid,
      dif_pos hValid, ?_⟩
    have hSame :
        String.fromUTF8 bytes.toByteArray hValid =
          String.ofList text := by
      rw [← String.toByteArray_inj, hOfList]
      rfl
    rw [hSame, String.toList_ofList]

theorem wellFormed_nil : WellFormed [] :=
  ⟨[], rfl⟩

theorem WellFormed.append
    {xs ys : List UInt8}
    (hFirst : WellFormed xs)
    (hSecond : WellFormed ys) :
    WellFormed (xs ++ ys) := by
  rcases hFirst with ⟨first, rfl⟩
  rcases hSecond with ⟨second, rfl⟩
  exact ⟨first ++ second, encode_append first second⟩

theorem opens_of_longer
    {xs ys : List UInt8}
    (hOpens : Opens ys)
    (hPrefix : xs <+: ys) :
    Opens xs := by
  rcases hOpens with ⟨rest, hRest⟩
  rcases hPrefix with ⟨more, rfl⟩
  rw [List.append_assoc] at hRest
  exact ⟨more ++ rest, hRest⟩

theorem wellFormed_of_row
    {lead : UInt8}
    {count low high : Nat}
    (hRow : row lead = some (count, low, high))
    {rest : List UInt8}
    (hTrails : Trails count low high rest) :
    WellFormed (lead :: rest) := by
  rcases encodeChar_of_row hRow hTrails with ⟨c, hChar⟩
  exact ⟨[c], by rw [encode, List.flatMap_singleton, hChar]⟩

/- A well-formed sequence is a row, then well-formed. -/
theorem wellFormed_cons
    {lead : UInt8}
    {rest : List UInt8}
    (hBytes : WellFormed (lead :: rest)) :
    ∃ count low high,
      row lead = some (count, low, high) ∧
        Trails count low high (rest.take count) ∧
        WellFormed (rest.drop count) := by
  rcases hBytes with ⟨text, hText⟩
  cases text with
  | nil => exact absurd hText nofun
  | cons c others =>
      rcases row_of_encodeChar c with
        ⟨first, owed, count, low, high, hBytes, hRow, hTrails⟩
      rw [encode, List.flatMap_cons, hBytes, List.cons_append,
        List.cons.injEq] at hText
      have hLength := length_of_trails hTrails
      refine ⟨count, low, high, ?_, ?_, ?_⟩
      · rw [← hText.1]
        exact hRow
      · rw [← hText.2, List.take_left' hLength]
        exact hTrails
      · rw [← hText.2, List.drop_left' hLength]
        exact ⟨others, rfl⟩

theorem opens_cons
    {lead : UInt8}
    {rest : List UInt8}
    (hOpens : Opens (lead :: rest)) :
    ∃ count low high,
      row lead = some (count, low, high) ∧
        Begun count low high rest := by
  rcases hOpens with ⟨more, hMore⟩
  rw [List.cons_append] at hMore
  rcases wellFormed_cons hMore with
    ⟨count, low, high, hRow, hTrails, _⟩
  have hTake : (rest ++ more).take count <+: rest ++ more :=
    List.take_prefix _ _
  have hJoin :=
    List.prefix_or_prefix_of_prefix
      (List.prefix_append rest more) hTake
  exact ⟨count, low, high, hRow,
    begun_of_trails hTrails hJoin⟩

theorem opens_of_begun
    {lead : UInt8}
    {count low high : Nat}
    (hRow : row lead = some (count, low, high))
    {rest : List UInt8}
    (hLength : rest.length ≤ count)
    (hBegun : Begun count low high rest) :
    Opens (lead :: rest) := by
  have hRange := row_range hRow
  rcases trails_of_begun hRange.1 hRange.2 hLength hBegun with
    ⟨more, hMore⟩
  exact ⟨more, wellFormed_of_row hRow hMore⟩

/- What follows a well-formed sequence can be cut off it. -/
theorem wellFormed_of_append
    {xs ys : List UInt8}
    (hFirst : WellFormed xs)
    (hBoth : WellFormed (xs ++ ys)) :
    WellFormed ys := by
  generalize hLength : xs.length = n
  induction n using Nat.strong_induction_on generalizing xs with
  | _ n ih =>
      cases xs with
      | nil => exact hBoth
      | cons lead rest =>
          rw [List.cons_append] at hBoth
          rcases wellFormed_cons hFirst with
            ⟨count, low, high, hRow, hTrails, hRest⟩
          rcases wellFormed_cons hBoth with
            ⟨_, _, _, hSame, _, hOthers⟩
          rw [hRow, Option.some.injEq] at hSame
          cases hSame
          have hCount := length_of_trails hTrails
          rw [List.length_take] at hCount
          rw [List.drop_append_of_le_length (by omega)]
            at hOthers
          rw [List.length_cons] at hLength
          refine ih _ ?_ hRest hOthers rfl
          rw [List.length_drop]
          omega

--------------------
-- Ill-Formed Parts
--------------------

theorem unconvertible_lead
    {lead : UInt8}
    (hRow : row lead = none)
    (rest : List UInt8) :
    Unconvertible (lead :: rest) := by
  intro part hPart hNil hFormed
  cases part with
  | nil => exact hNil rfl
  | cons first others =>
      rw [List.cons_prefix_cons] at hPart
      rcases wellFormed_cons hFormed with ⟨_, _, _, hSome, _⟩
      rw [hPart.1, hRow] at hSome
      exact absurd hSome nofun

/- A byte that leads nothing is a part of its own. -/
theorem maximalSubpart_lead
    {lead : UInt8}
    (hRow : row lead = none)
    (rest : List UInt8) :
    MaximalSubpart (lead :: rest) 1 := by
  have hNone :
      ∀ more, ¬Opens ((lead :: rest).take (more + 1)) := by
    intro more hOpens
    rw [List.take_succ_cons] at hOpens
    rcases opens_cons hOpens with ⟨_, _, _, hSome, _⟩
    rw [hRow] at hSome
    exact absurd hSome nofun
  refine ⟨Nat.one_pos, ?_, Or.inr ⟨rfl, hNone 0⟩, ?_⟩
  · rw [List.length_cons]
    omega
  · intro more hMore _
    have hSucc := hNone (more - 1)
    rw [Nat.sub_add_cancel (by omega)] at hSucc
    exact hSucc

section Cut

variable
  {lead : UInt8}
  {needed low high count : Nat}
  {rest : List UInt8}

/-
  A sequence that stops being one `count` bytes after its
  lead, at the end of the input or at a byte out of range.
-/
theorem unconvertible_cut
    (hRow : row lead = some (needed, low, high))
    (hCount : count < needed)
    (hEnd :
      rest.length = count ∨
        ¬Begun needed low high (rest.take (count + 1))) :
    Unconvertible (lead :: rest) := by
  intro part hPart hNil hFormed
  cases part with
  | nil => exact hNil rfl
  | cons first others =>
      rw [List.cons_prefix_cons] at hPart
      rcases hPart with ⟨rfl, hOthers⟩
      rcases wellFormed_cons hFormed with
        ⟨_, _, _, hSame, hTrails, _⟩
      rw [hRow, Option.some.injEq] at hSame
      cases hSame
      have hTaken : others.take needed <+: others :=
        List.take_prefix _ _
      have hPart := hTaken.trans hOthers
      rcases hEnd with hEnd | hWrong
      · have hLe := hPart.length_le
        rw [length_of_trails hTrails, hEnd] at hLe
        omega
      · have hNext : rest.take (count + 1) <+: rest :=
          List.take_prefix _ _
        exact hWrong (begun_of_trails hTrails
          (List.prefix_or_prefix_of_prefix hNext hPart))

theorem maximalSubpart_cut
    (hRow : row lead = some (needed, low, high))
    (hCount : count < needed)
    (hInside : count ≤ rest.length)
    (hBegun : Begun needed low high (rest.take count))
    (hEnd :
      rest.length = count ∨
        ¬Begun needed low high (rest.take (count + 1))) :
    MaximalSubpart (lead :: rest) (count + 1) := by
  have hOpens : Opens ((lead :: rest).take (count + 1)) := by
    rw [List.take_succ_cons]
    refine opens_of_begun hRow ?_ hBegun
    rw [List.length_take]
    omega
  refine ⟨Nat.succ_pos _, ?_, Or.inl hOpens, ?_⟩
  · rw [List.length_cons]
    omega
  · intro more hMore hLe hLonger
    rw [List.length_cons] at hLe
    rcases hEnd with hEnd | hWrong
    · omega
    · have hNext :
          (lead :: rest).take (count + 1 + 1) <+:
            (lead :: rest).take more :=
        List.take_prefix_take_left (by omega)
      have hOne := opens_of_longer hLonger hNext
      rw [List.take_succ_cons] at hOne
      rcases opens_cons hOne with ⟨_, _, _, hSame, hGood⟩
      rw [hRow, Option.some.injEq] at hSame
      cases hSame
      exact hWrong hGood

end Cut

end Utf8
