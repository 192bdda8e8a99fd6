import SentinelCommand.Agent.Conversation
import SentinelCommand.Json.Reader
import SentinelCommand.Lib.Numeral

/-
  The JSON that `audit.rs` stores, as `json.dumps` writes it,
  with or without a space after its separators.

  Both spellings are one with the gap as a parameter. A
  character is written as itself or by one of the escapes,
  an astral one as a surrogate pair.

  Key definitions include:
    * `Audit.pythonJsonCompact`
    * `Audit.spelled`

  Correctness is proven by:
    * `Audit.spelled_pythonJsonChar`
    * `Audit.pythonJson_faithful`
-/

--------------------
-- Writers
--------------------

namespace SentinelCommand

namespace Audit

open Agent

mutual

/- `python_json_compact`. -/
def pythonJsonCompact : Json → String
| .string text => pythonJsonString text
| .array items =>
    "[" ++ ",".intercalate (compactItems items) ++ "]"
| .object fields =>
    "\x7b" ++ ",".intercalate (compactFields fields) ++ "\x7d"
| other => pythonJsonValue other

def compactItems : List Json → List String
| [] => []
| item :: rest => pythonJsonCompact item :: compactItems rest

def compactFields : List (String × Json) → List String
| [] => []
| (key, value) :: rest =>
    (pythonJsonString key ++ ":" ++ pythonJsonCompact value) ::
      compactFields rest

end

def openBrace : Char := Char.ofNat 123

def closeBrace : Char := Char.ofNat 125

mutual

/- Either spelling, by what follows a separator. -/
def spelled (gap : List Char) : Json → List Char
| .array items =>
    '[' ::
      (',' :: gap).intercalate (spelledItems gap items) ++ [']']
| .object fields =>
    openBrace ::
      (',' :: gap).intercalate (spelledFields gap fields) ++
        [closeBrace]
| other => (pythonJsonValue other).toList

def spelledItems
    (gap : List Char) : List Json → List (List Char)
| [] => []
| item :: rest => spelled gap item :: spelledItems gap rest

def spelledFields
    (gap : List Char) :
    List (String × Json) → List (List Char)
| [] => []
| (key, value) :: rest =>
    ((pythonJsonString key).toList ++ ':' :: gap ++
      spelled gap value) :: spelledFields gap rest

end

mutual

theorem toList_pythonJsonValue :
    (value : Json) →
      (pythonJsonValue value).toList = spelled [' '] value
| .null => rfl
| .bool _ => rfl
| .integer _ => rfl
| .float _ => rfl
| .string _ => rfl
| .array items => by
    rw [pythonJsonValue, String.toList_append,
      String.toList_append, String.toList_intercalate,
      map_pythonJsonItems items, spelled]
    rfl
| .object fields => by
    rw [pythonJsonValue, String.toList_append,
      String.toList_append, String.toList_intercalate,
      map_pythonJsonFields fields, spelled]
    rfl

theorem map_pythonJsonItems :
    (items : List Json) →
      (pythonJsonItems items).map String.toList =
        spelledItems [' '] items
| [] => rfl
| item :: rest => by
    rw [pythonJsonItems, List.map_cons,
      toList_pythonJsonValue item, map_pythonJsonItems rest,
      spelledItems]

theorem map_pythonJsonFields :
    (fields : List (String × Json)) →
      (pythonJsonFields fields).map String.toList =
        spelledFields [' '] fields
| [] => rfl
| (key, value) :: rest => by
    rw [pythonJsonFields, List.map_cons, String.toList_append,
      String.toList_append, toList_pythonJsonValue value,
      map_pythonJsonFields rest, spelledFields]
    rfl

end

mutual

theorem toList_pythonJsonCompact :
    (value : Json) →
      (pythonJsonCompact value).toList = spelled [] value
| .null => rfl
| .bool _ => rfl
| .integer _ => rfl
| .float _ => rfl
| .string _ => rfl
| .array items => by
    rw [pythonJsonCompact, String.toList_append,
      String.toList_append, String.toList_intercalate,
      map_compactItems items, spelled]
    rfl
| .object fields => by
    rw [pythonJsonCompact, String.toList_append,
      String.toList_append, String.toList_intercalate,
      map_compactFields fields, spelled]
    rfl

theorem map_compactItems :
    (items : List Json) →
      (compactItems items).map String.toList =
        spelledItems [] items
| [] => rfl
| item :: rest => by
    rw [compactItems, List.map_cons,
      toList_pythonJsonCompact item, map_compactItems rest,
      spelledItems]

theorem map_compactFields :
    (fields : List (String × Json)) →
      (compactFields fields).map String.toList =
        spelledFields [] fields
| [] => rfl
| (key, value) :: rest => by
    rw [compactFields, List.map_cons, String.toList_append,
      String.toList_append, toList_pythonJsonCompact value,
      map_compactFields rest, spelledFields]
    rfl

end

--------------------
-- Characters
--------------------

open Agent Json

/- Outside of the space to the tilde, or a mark of JSON. -/
def Escaped (c : Char) : Prop :=
  c = backslash ∨ c = quotationMark ∨ c.toNat < 32 ∨
    126 < c.toNat

/- The spellings of a character. -/
inductive Spelled (c : Char) : List Char → Prop where
  | plain : ¬ Escaped c → Spelled c [c]
  | short {e : Char} :
      Escaped c → e.toNat < 128 →
        (∀ rest, Reader.escaped (e :: rest) = some (c, rest)) →
          Spelled c [backslash, e]
  | unit :
      Escaped c → c.toNat ≤ 65535 →
        Spelled c (pythonJsonChar.escape c.toNat)
  | pair :
      Escaped c → 65535 < c.toNat →
        Spelled c
          (pythonJsonChar.escape (Utf16.high c.toNat) ++
            pythonJsonChar.escape (Utf16.low c.toNat))

/- A control character with a letter of its own. -/
theorem spelled_short
    {c e : Char}
    {n : Nat}
    (hC : c.toNat = n)
    (hEscaped : n < 32)
    (hE : e.toNat < 128)
    (hRead :
      ∀ rest,
        Reader.escaped (e :: rest) = some (Char.ofNat n, rest)) :
    Spelled c [backslash, e] := by
  have hSame : Char.ofNat n = c := by
    rw [← hC, Char.ofNat_toNat]
  apply Spelled.short
  · right
    right
    left
    rw [hC]
    exact hEscaped
  · exact hE
  · rw [← hSame]
    exact hRead

theorem spelled_pythonJsonChar (c : Char) :
    Spelled c (pythonJsonChar c) := by
  unfold pythonJsonChar
  split
  · rename_i hQuote
    subst hQuote
    exact .short (.inr (.inl rfl)) (by decide) (fun _ => rfl)
  · rename_i hQuote
    split
    · rename_i hBackslash
      subst hBackslash
      exact .short (.inl rfl) (by decide) (fun _ => rfl)
    · rename_i hBackslash
      split
      · rename_i hC
        exact spelled_short hC (by decide) (by decide)
          (fun _ => rfl)
      · split
        · rename_i hC
          exact spelled_short hC (by decide) (by decide)
            (fun _ => rfl)
        · split
          · rename_i hC
            exact spelled_short hC (by decide) (by decide)
              (fun _ => rfl)
          · split
            · rename_i hC
              exact spelled_short hC (by decide) (by decide)
                (fun _ => rfl)
            · split
              · rename_i hC
                exact spelled_short hC (by decide) (by decide)
                  (fun _ => rfl)
              · split
                · rename_i hPlain
                  apply Spelled.plain
                  rintro (h | h | h | h)
                  · exact hBackslash h
                  · exact hQuote h
                  · omega
                  · omega
                · rename_i hOutside
                  have hEscaped : Escaped c := by
                    right
                    right
                    omega
                  split
                  · rename_i hAstral
                    exact .pair hEscaped hAstral
                  · rename_i hBasic
                    exact .unit hEscaped (by omega)

/- What a spelling is, by its characters. -/
theorem escape_eq (n : Nat) :
    pythonJsonChar.escape n =
      [backslash, 'u', Nat.digitChar (n / 256 / 16),
        Nat.digitChar (n / 256 % 16),
        Nat.digitChar (n % 256 / 16),
        Nat.digitChar (n % 256 % 16)] :=
  rfl

theorem digitChar_ascii :
    ∀ d < 16, (Nat.digitChar d).toNat < 128 := by
  decide

theorem escape_ascii
    {n : Nat}
    (hN : n < 65536) :
    ∀ d ∈ pythonJsonChar.escape n, d.toNat < 128 := by
  intro d hD
  rw [escape_eq] at hD
  simp only [List.mem_cons, List.not_mem_nil, or_false] at hD
  rcases hD with h | h | h | h | h | h
  · rw [h]
    decide
  · rw [h]
    decide
  · rw [h]
    exact digitChar_ascii _ (by omega)
  · rw [h]
    exact digitChar_ascii _ (by omega)
  · rw [h]
    exact digitChar_ascii _ (by omega)
  · rw [h]
    exact digitChar_ascii _ (by omega)

theorem toNat_lt (c : Char) :
    c.toNat < 1114112 ∧
      (c.toNat < 55296 ∨ 57343 < c.toNat) := by
  have hValid := c.valid
  rcases hValid with h | ⟨h, hLast⟩
  · change c.toNat < 55296 at h
    omega
  · change 57343 < c.toNat at h
    change c.toNat < 1114112 at hLast
    omega

theorem ascii_of_spelled
    {c : Char}
    {text : List Char}
    (hText : Spelled c text) :
    ∀ d ∈ text, d.toNat < 128 := by
  have hC := toNat_lt c
  cases hText with
  | plain hPlain =>
      intro d hD
      rw [List.mem_singleton.mp hD]
      by_contra hLarge
      apply hPlain
      right
      right
      right
      omega
  | short _ hE _ =>
      intro d hD
      simp only [List.mem_cons, List.not_mem_nil, or_false] at hD
      rcases hD with h | h
      · rw [h]
        decide
      · rw [h]
        exact hE
  | unit _ hBasic =>
      exact escape_ascii (by omega)
  | pair _ hAstral =>
      have hHigh := Utf16.isHigh_high hC.1
      have hLow := Utf16.isLow_low c.toNat
      unfold Utf16.IsHigh at hHigh
      unfold Utf16.IsLow at hLow
      intro d hD
      rcases List.mem_append.mp hD with h | h
      · exact escape_ascii (by omega) d h
      · exact escape_ascii (by omega) d h

theorem head_of_spelled
    {c : Char}
    {text : List Char}
    (hText : Spelled c text) :
    ∃ d tail, text = d :: tail ∧ d ≠ quotationMark := by
  cases hText with
  | plain hPlain =>
      refine ⟨c, [], rfl, ?_⟩
      intro hQuote
      exact hPlain (.inr (.inl hQuote))
  | short _ _ _ => exact ⟨backslash, _, rfl, by decide⟩
  | unit _ _ => exact ⟨backslash, _, rfl, by decide⟩
  | pair _ _ => exact ⟨backslash, _, rfl, by decide⟩

/- Escaped characters alone are not written as themselves. -/
theorem escape_rule (c : Char) :
    (pythonJsonChar c = [c] ↔ ¬ Escaped c) ∧
      (Escaped c →
        ∃ tail, tail ≠ [] ∧
          pythonJsonChar c = backslash :: tail) := by
  have hText := spelled_pythonJsonChar c
  revert hText
  generalize pythonJsonChar c = text
  intro hText
  cases hText with
  | plain hPlain =>
      constructor
      · exact ⟨fun _ => hPlain, fun _ => rfl⟩
      · intro hEscaped
        exact absurd hEscaped hPlain
  | short hEscaped _ _ =>
      constructor
      · constructor
        · intro hSame
          cases hSame
        · intro hPlain
          exact absurd hEscaped hPlain
      · intro _
        exact ⟨_, List.cons_ne_nil _ _, rfl⟩
  | unit hEscaped _ =>
      constructor
      · constructor
        · intro hSame
          cases hSame
        · intro hPlain
          exact absurd hEscaped hPlain
      · intro _
        exact ⟨_, List.cons_ne_nil _ _, rfl⟩
  | pair hEscaped _ =>
      constructor
      · constructor
        · intro hSame
          cases hSame
        · intro hPlain
          exact absurd hEscaped hPlain
      · intro _
        exact ⟨_, List.cons_ne_nil _ _, rfl⟩

--------------------
-- Reading Strings
--------------------

theorem readUnit_escape
    {n : Nat}
    (hN : n < 65536)
    (rest : List Char) :
    Utf16.readUnit ((pythonJsonChar.escape n).drop 2 ++ rest) =
      some (n, rest) :=
  Utf16.readUnit_spelled hN rest

theorem unescape_escape (n : Nat) (rest : List Char) :
    Reader.unescape (pythonJsonChar.escape n ++ rest) =
      Reader.codePoint ((pythonJsonChar.escape n).drop 2 ++ rest) :=
  rfl

/- A high half goes with the unit that follows it. -/
theorem codePoint_pair
    {first second : Nat}
    (hFirst : Utf16.IsHigh first)
    (hSecond : Utf16.IsLow second)
    (rest : List Char) :
    Reader.codePoint
        ((pythonJsonChar.escape first).drop 2 ++
          (pythonJsonChar.escape second ++ rest)) =
      some (Char.ofNat (Utf16.join first second), rest) := by
  have hHigh := hFirst
  have hLow := hSecond
  unfold Utf16.IsHigh at hHigh
  unfold Utf16.IsLow at hLow
  have hNext :
      pythonJsonChar.escape second ++ rest =
        backslash :: 'u' ::
          ((pythonJsonChar.escape second).drop 2 ++ rest) := rfl
  rw [Reader.codePoint, readUnit_escape (by omega), hNext]
  dsimp only
  rw [if_pos hFirst, if_pos ⟨rfl, rfl⟩, readUnit_escape (by omega)]
  dsimp only
  rw [if_pos hSecond]

theorem unescape_of_spelled
    {c : Char}
    {text : List Char}
    (hText : Spelled c text)
    (rest : List Char) :
    Reader.unescape (text ++ rest) = some (c, rest) := by
  have hC := toNat_lt c
  cases hText with
  | plain hPlain =>
      rw [List.singleton_append, Reader.unescape,
        if_neg (fun h => hPlain (.inl h)),
        if_neg (fun h => hPlain (.inr (.inr (.inl h))))]
  | short _ _ hRead => exact hRead rest
  | unit _ hBasic =>
      rw [unescape_escape, Reader.codePoint,
        readUnit_escape (by omega)]
      dsimp only
      rw [if_neg (by unfold Utf16.IsHigh; omega),
        if_neg (by unfold Utf16.IsLow; omega), Char.ofNat_toNat]
  | pair _ hAstral =>
      rw [List.append_assoc, unescape_escape,
        codePoint_pair (Utf16.isHigh_high hC.1)
          (Utf16.isLow_low c.toNat),
        Utf16.join_split hAstral, Char.ofNat_toNat]

theorem length_le_flatMap (text : List Char) :
    text.length ≤ (text.flatMap pythonJsonChar).length := by
  induction text with
  | nil => exact le_rfl
  | cons c rest ih =>
      rcases head_of_spelled (spelled_pythonJsonChar c) with
        ⟨d, tail, hText, -⟩
      rw [List.flatMap_cons, hText, List.length_append,
        List.length_cons, List.length_cons]
      omega

theorem readString_flatMap
    (text rest : List Char)
    (fuel : Nat)
    (hFuel : text.length < fuel) :
    Reader.readString fuel
        (text.flatMap pythonJsonChar ++ quotationMark :: rest) =
      some (text, rest) := by
  induction text generalizing fuel with
  | nil =>
      rcases Nat.exists_eq_succ_of_ne_zero
        (Nat.pos_iff_ne_zero.mp hFuel) with
        ⟨n, rfl⟩
      exact if_pos rfl
  | cons c text ih =>
      rcases Nat.exists_eq_succ_of_ne_zero
        (Nat.ne_of_gt (Nat.zero_lt_of_lt hFuel)) with
        ⟨n, rfl⟩
      have hSpelled := spelled_pythonJsonChar c
      have hRead := unescape_of_spelled hSpelled
        (text.flatMap pythonJsonChar ++ quotationMark :: rest)
      rcases head_of_spelled hSpelled with ⟨d, tail, hText, hHead⟩
      rw [List.flatMap_cons, List.append_assoc]
      rw [hText, List.cons_append] at hRead ⊢
      rw [Reader.readString, if_neg hHead, hRead]
      dsimp only
      rw [ih n (Nat.lt_of_succ_lt_succ hFuel)]
      rfl

/- A string is read back after its opening mark. -/
theorem string_pythonJsonString
    (text : String)
    (rest : List Char) :
    ∃ body,
      (pythonJsonString text).toList = quotationMark :: body ∧
        Reader.string (body ++ rest) = some (text, rest) := by
  refine ⟨text.toList.flatMap pythonJsonChar ++ [quotationMark],
    ?_, ?_⟩
  · rw [pythonJsonString, String.toList_ofList]
    rfl
  · have hLength := length_le_flatMap text.toList
    have hRead := readString_flatMap text.toList rest
      ((text.toList.flatMap pythonJsonChar ++
        [quotationMark] ++ rest).length + 1)
      (by
        rw [List.length_append, List.length_append]
        omega)
    rw [Reader.string, List.append_assoc] at *
    rw [List.singleton_append] at *
    rw [hRead, Option.map_some, String.ofList_toList]

--------------------
-- Reading Numbers
--------------------

/- What follows a value inside of another, or nothing. -/
def Ends (rest : List Char) : Prop :=
  ∀ c ∈ rest.head?, c = ',' ∨ c = ']' ∨ c = closeBrace

/- Digits are read up to what is none. -/
theorem digits_stop
    {ds rest : List Char}
    (hSome : ds ≠ [])
    (hDigits : ∀ c ∈ ds, c.isDigit = true)
    (hStop : ∀ c ∈ rest.head?, c.isDigit = false) :
    Reader.digits (ds ++ rest) = some (ds, rest) := by
  have hTake : rest.takeWhile Char.isDigit = [] ∧
      rest.dropWhile Char.isDigit = rest := by
    cases rest with
    | nil => exact ⟨rfl, rfl⟩
    | cons c rest =>
        have hC : ¬ c.isDigit = true := by
          rw [hStop c rfl]
          exact Bool.noConfusion
        exact ⟨List.takeWhile_cons_of_neg hC,
          List.dropWhile_cons_of_neg hC⟩
  rw [Reader.digits, List.takeWhile_append_of_pos hDigits,
    List.dropWhile_append_of_pos hDigits, hTake.1, hTake.2,
    List.append_nil, if_neg hSome]

theorem Ends.not_digit
    {rest : List Char}
    (hEnds : Ends rest) :
    ∀ c ∈ rest.head?, c.isDigit = false := by
  intro c hC
  rcases hEnds c hC with h | h | h
  · rw [h]
    rfl
  · rw [h]
    rfl
  · rw [h]
    rfl

theorem fraction_ends
    {rest : List Char}
    (hEnds : Ends rest) :
    Reader.fraction rest = some ([], rest) ∧
      Reader.exponent rest = some ([], rest) := by
  cases rest with
  | nil => exact ⟨rfl, rfl⟩
  | cons c rest =>
      rcases hEnds c rfl with h | h | h
      · subst h
        exact ⟨rfl, rfl⟩
      · subst h
        exact ⟨rfl, rfl⟩
      · subst h
        exact ⟨rfl, rfl⟩

theorem whole_toDigits
    (n : Nat)
    {rest : List Char}
    (hEnds : Ends rest) :
    Reader.whole (Nat.toDigits 10 n ++ rest) =
      some (Nat.toDigits 10 n, rest) := by
  have hDigits : ∀ c ∈ Nat.toDigits 10 n, c.isDigit = true :=
    fun c hC =>
      Nat.isDigit_of_mem_toDigits (by decide) (by decide) hC
  rw [Reader.whole,
    digits_stop Nat.toDigits_ne_nil hDigits hEnds.not_digit]
  split
  · rename_i c others rest' hZero
    rcases Prod.mk.inj (Option.some.inj hZero) with ⟨hSame, -⟩
    by_cases hN : n = 0
    · subst hN
      cases hSame
    · have hHead := Numeral.head_toDigits hN
      rw [hSame] at hHead
      exact absurd rfl hHead
  · rfl

theorem number_natural
    (n : Nat)
    {rest : List Char}
    (hEnds : Ends rest) :
    Reader.number (Nat.toDigits 10 n ++ rest) =
        some (.integer n, rest) ∧
      Reader.number ('-' :: Nat.toDigits 10 n ++ rest) =
        some (.integer (-n), rest) := by
  have hWhole := whole_toDigits n hEnds
  rcases fraction_ends hEnds with ⟨hFraction, hExponent⟩
  have hMinus :
      Reader.minus (Nat.toDigits 10 n ++ rest) =
        ([], Nat.toDigits 10 n ++ rest) := by
    have hDigits : ∀ c ∈ Nat.toDigits 10 n, c.isDigit = true :=
      fun c hC =>
        Nat.isDigit_of_mem_toDigits (by decide) (by decide) hC
    cases hText : Nat.toDigits 10 n with
    | nil => exact absurd hText Nat.toDigits_ne_nil
    | cons c others =>
        rw [hText] at hDigits
        apply if_neg
        intro hDash
        subst hDash
        cases hDigits '-' List.mem_cons_self
  constructor
  · rw [Reader.number, hMinus]
    dsimp only
    rw [hWhole]
    dsimp only
    rw [hFraction]
    dsimp only
    rw [hExponent]
    dsimp only
    rw [if_pos ⟨rfl, rfl⟩, Reader.signed, if_pos rfl,
      Nat.ofDigitChars_ten_toDigits]
  · rw [Reader.number, List.cons_append, Reader.minus, if_pos rfl]
    dsimp only
    rw [hWhole]
    dsimp only
    rw [hFraction]
    dsimp only
    rw [hExponent]
    dsimp only
    rw [if_pos ⟨rfl, rfl⟩, Reader.signed,
      if_neg (List.cons_ne_nil _ _),
      Nat.ofDigitChars_ten_toDigits]

/- A text that is no literal name is read as a number. -/
theorem leaf_of_head
    {c : Char}
    (hC : c.isDigit = true ∨ c = '-')
    (rest : List Char) :
    Reader.leaf (c :: rest) = Reader.number (c :: rest) := by
  have hWord :
      ∀ (first : Char) (others : List Char),
        first.isDigit = false → first ≠ '-' →
          (first :: others).isPrefixOf (c :: rest) = false := by
    intro first others hDigit hDash
    have hNe : (first == c) = false := by
      rw [beq_eq_false_iff_ne]
      intro hSame
      subst hSame
      rcases hC with h | h
      · rw [hDigit] at h
        cases h
      · exact hDash h
    rw [List.isPrefixOf, hNe, Bool.false_and]
  have hNull := hWord 'n' ['u', 'l', 'l'] rfl (by decide)
  have hTrue := hWord 't' ['r', 'u', 'e'] rfl (by decide)
  have hFalse := hWord 'f' ['a', 'l', 's', 'e'] rfl (by decide)
  unfold Reader.leaf Reader.word
  change
    ((if List.isPrefixOf ['n', 'u', 'l', 'l'] (c :: rest) = true
        then _ else none) <|>
      (if List.isPrefixOf ['t', 'r', 'u', 'e'] (c :: rest) = true
        then _ else none) <|>
      (if List.isPrefixOf ['f', 'a', 'l', 's', 'e'] (c :: rest) =
          true
        then _ else none) <|> _) = _
  rw [hNull, hTrue, hFalse]
  rfl

/- An integer as it is written, of any size. -/
theorem leaf_integer
    (value : Int)
    {rest : List Char}
    (hEnds : Ends rest) :
    ∃ c tail,
      (toString value).toList = c :: tail ∧
        (c.isDigit = true ∨ c = '-') ∧
        Reader.leaf (c :: tail ++ rest) =
          some (.integer value, rest) := by
  cases value with
  | ofNat n =>
      have hText : (toString (Int.ofNat n)).toList =
          Nat.toDigits 10 n := Nat.toList_repr
      have hNumber := (number_natural n hEnds).1
      have hDigits : ∀ c ∈ Nat.toDigits 10 n, c.isDigit = true :=
        fun c hC =>
          Nat.isDigit_of_mem_toDigits (by decide) (by decide) hC
      cases hSpelled : Nat.toDigits 10 n with
      | nil => exact absurd hSpelled Nat.toDigits_ne_nil
      | cons c tail =>
          rw [hSpelled] at hDigits hNumber
          have hC := hDigits c List.mem_cons_self
          refine ⟨c, tail, hText.trans hSpelled, .inl hC, ?_⟩
          rw [List.cons_append, leaf_of_head (.inl hC)]
          exact hNumber
  | negSucc n =>
      have hText : (toString (Int.negSucc n)).toList =
          '-' :: Nat.toDigits 10 (n + 1) := by
        change ("-" ++ Nat.repr (n + 1)).toList = _
        rw [String.toList_append, Nat.toList_repr]
        rfl
      have hNumber := (number_natural (n + 1) hEnds).2
      refine ⟨'-', _, hText, .inr rfl, ?_⟩
      rw [List.cons_append, leaf_of_head (.inr rfl)]
      exact hNumber

--------------------
-- Reading Floats
--------------------

def IsDigits (text : List Char) : Prop :=
  text ≠ [] ∧ ∀ c ∈ text, c.isDigit = true

inductive IsFraction : List Char → Prop where
  | none : IsFraction []
  | digits {ds : List Char} :
      IsDigits ds → IsFraction ('.' :: ds)

inductive IsExponent : List Char → Prop where
  | none : IsExponent []
  | digits {e : Char} {sign ds : List Char} :
      (e = 'e' ∨ e = 'E') →
        (sign = [] ∨ sign = ['+'] ∨ sign = ['-']) →
          IsDigits ds → IsExponent (e :: (sign ++ ds))

/-
  A number that is no integer, as the standard spells it: no
  zero leads another digit, and a fraction or an exponent is
  there.
-/
inductive IsFloat : List Char → Prop where
  | parts {sign whole fraction exponent : List Char} :
      (sign = [] ∨ sign = ['-']) →
        IsDigits whole →
          (whole.head? = some '0' → whole = ['0']) →
            IsFraction fraction →
              IsExponent exponent →
                (fraction ≠ [] ∨ exponent ≠ []) →
                  IsFloat
                    (sign ++ (whole ++ (fraction ++ exponent)))

theorem minus_cons
    {c : Char}
    (hC : c.isDigit = true)
    (rest : List Char) :
    Reader.minus (c :: rest) = ([], c :: rest) := by
  apply if_neg
  intro hDash
  subst hDash
  cases hC

theorem exponent_digits
    {e : Char}
    {sign ds rest : List Char}
    (hE : e = 'e' ∨ e = 'E')
    (hSign : sign = [] ∨ sign = ['+'] ∨ sign = ['-'])
    (hDigits : IsDigits ds)
    (hEnds : Ends rest) :
    Reader.exponent (e :: (sign ++ ds) ++ rest) =
      some (e :: (sign ++ ds), rest) := by
  have hRead := digits_stop hDigits.1 hDigits.2 hEnds.not_digit
  rw [List.cons_append, List.append_assoc]
  unfold Reader.exponent
  dsimp only
  rw [if_pos hE]
  rcases hSign with h | h | h
  · subst h
    have hSigns :
        ∀ c others, ds ++ rest = c :: others →
          c.isDigit = true := by
      intro c others hText
      rcases List.exists_cons_of_ne_nil hDigits.1 with
        ⟨d, tail, hDs⟩
      rw [hDs, List.cons_append] at hText
      rw [← (List.cons.inj hText).1]
      apply hDigits.2
      rw [hDs]
      exact List.mem_cons_self
    rw [List.nil_append]
    split
    · rename_i hText
      cases hSigns _ _ hText
    · rename_i hText
      cases hSigns _ _ hText
    · rw [hRead]
      rfl
  · subst h
    change (Reader.digits (ds ++ rest)).map _ = _
    rw [hRead]
    rfl
  · subst h
    change (Reader.digits (ds ++ rest)).map _ = _
    rw [hRead]
    rfl

/- What follows a fraction is no digit. -/
theorem exponent_stop
    {exponent rest : List Char}
    (hExponent : IsExponent exponent)
    (hEnds : Ends rest) :
    Reader.exponent (exponent ++ rest) = some (exponent, rest) ∧
      ∀ c ∈ (exponent ++ rest).head?,
        c.isDigit = false ∧ (exponent ≠ [] → c ≠ '.') := by
  cases hExponent with
  | none =>
      refine ⟨(fraction_ends hEnds).2, ?_⟩
      intro c hC
      exact ⟨hEnds.not_digit c hC, fun h => absurd rfl h⟩
  | digits hE hSign hDigits =>
      refine ⟨exponent_digits hE hSign hDigits hEnds, ?_⟩
      intro c hC
      cases hC
      rcases hE with h | h
      · rw [h]
        exact ⟨rfl, fun _ => by decide⟩
      · rw [h]
        exact ⟨rfl, fun _ => by decide⟩

theorem fraction_stop
    {fraction rest : List Char}
    (hFraction : IsFraction fraction)
    (hStop :
      ∀ c ∈ rest.head?, c.isDigit = false ∧ c ≠ '.') :
    Reader.fraction (fraction ++ rest) = some (fraction, rest) ∧
      ∀ c ∈ (fraction ++ rest).head?, c.isDigit = false := by
  cases hFraction with
  | none =>
      rw [List.nil_append]
      refine ⟨?_, fun c hC => (hStop c hC).1⟩
      cases rest with
      | nil => rfl
      | cons c rest =>
          rw [Reader.fraction, if_neg (hStop c rfl).2]
  | digits hDigits =>
      constructor
      · rw [List.cons_append, Reader.fraction, if_pos rfl,
          digits_stop hDigits.1 hDigits.2
            (fun c hC => (hStop c hC).1)]
        rfl
      · intro c hC
        cases hC
        rfl

theorem whole_stop
    {whole rest : List Char}
    (hWhole : IsDigits whole)
    (hLead : whole.head? = some '0' → whole = ['0'])
    (hStop : ∀ c ∈ rest.head?, c.isDigit = false) :
    Reader.whole (whole ++ rest) = some (whole, rest) := by
  rw [Reader.whole, digits_stop hWhole.1 hWhole.2 hStop]
  split
  · rename_i hZero
    rcases Prod.mk.inj (Option.some.inj hZero) with ⟨hSame, -⟩
    rw [hSame] at hLead
    cases hLead rfl
  · rfl

theorem number_float
    {text rest : List Char}
    (hText : IsFloat text)
    (hEnds : Ends rest) :
    Reader.number (text ++ rest) =
      some (.float (String.ofList text), rest) := by
  cases hText with
  | @parts sign whole fraction exponent
      hSign hWhole hLead hFraction hExponent hSome =>
      rcases exponent_stop hExponent hEnds with ⟨hExponentRead, hStop⟩
      have hDot : ∀ c ∈ (exponent ++ rest).head?, c ≠ '.' := by
        intro c hC
        by_cases hNone : exponent = []
        · rw [hNone] at hC
          rcases hEnds c hC with h | h | h
          · rw [h]
            decide
          · rw [h]
            decide
          · rw [h]
            decide
        · exact (hStop c hC).2 hNone
      rcases fraction_stop hFraction
          (fun c hC => ⟨(hStop c hC).1, hDot c hC⟩) with
        ⟨hFractionRead, hNoDigit⟩
      have hWholeRead := whole_stop hWhole hLead hNoDigit
      have hMinus :
          Reader.minus
              (sign ++ (whole ++ (fraction ++ (exponent ++ rest)))) =
            (sign, whole ++ (fraction ++ (exponent ++ rest))) := by
        rcases hSign with h | h
        · subst h
          rcases hWhole with ⟨hNonempty, hAll⟩
          cases whole with
          | nil => exact absurd rfl hNonempty
          | cons c others =>
              exact minus_cons (hAll c List.mem_cons_self) _
        · subst h
          rfl
      rw [List.append_assoc, List.append_assoc,
        List.append_assoc, Reader.number, hMinus]
      dsimp only
      rw [hWholeRead]
      dsimp only
      rw [hFractionRead]
      dsimp only
      rw [hExponentRead]
      dsimp only
      rw [if_neg, List.append_assoc, List.append_assoc]
      intro hNone
      rcases hSome with h | h
      · exact h hNone.1
      · exact h hNone.2

/- A float as it is spelled, by its first character. -/
theorem leaf_float
    {spelling : String}
    (hSpelling : IsFloat spelling.toList)
    {rest : List Char}
    (hEnds : Ends rest) :
    ∃ c tail,
      spelling.toList = c :: tail ∧
        (c.isDigit = true ∨ c = '-') ∧
        Reader.leaf (c :: tail ++ rest) =
          some (.float spelling, rest) := by
  have hNumber := number_float hSpelling hEnds
  rw [String.ofList_toList] at hNumber
  have hHead :
      ∃ c tail, spelling.toList = c :: tail ∧
        (c.isDigit = true ∨ c = '-') := by
    generalize spelling.toList = text at hSpelling
    cases hSpelling with
    | @parts sign whole fraction exponent hSign hWhole =>
        rcases hWhole with ⟨hNonempty, hAll⟩
        cases whole with
        | nil => exact absurd rfl hNonempty
        | cons c others =>
            rcases hSign with h | h
            · subst h
              exact ⟨c, _, rfl, .inl (hAll c List.mem_cons_self)⟩
            · subst h
              exact ⟨'-', _, rfl, .inr rfl⟩
  rcases hHead with ⟨c, tail, hText, hC⟩
  rw [hText] at hNumber
  refine ⟨c, tail, hText, hC, ?_⟩
  rw [List.cons_append, leaf_of_head hC]
  exact hNumber

--------------------
-- Reading Values
--------------------

mutual

/- Every number of a value is an integer. -/
def Exact : Json → Prop
| .float _ => False
| .array items => ExactItems items
| .object fields => ExactFields fields
| _ => True

def ExactItems : List Json → Prop
| [] => True
| item :: rest => Exact item ∧ ExactItems rest

def ExactFields : List (String × Json) → Prop
| [] => True
| (_, value) :: rest => Exact value ∧ ExactFields rest

end

mutual

/- Every float of a value is spelled as a number. -/
def Legible : Json → Prop
| .float spelling => IsFloat spelling.toList
| .array items => LegibleItems items
| .object fields => LegibleFields fields
| _ => True

def LegibleItems : List Json → Prop
| [] => True
| item :: rest => Legible item ∧ LegibleItems rest

def LegibleFields : List (String × Json) → Prop
| [] => True
| (_, value) :: rest => Legible value ∧ LegibleFields rest

end

mutual

theorem legible_of_exact :
    (value : Json) → Exact value → Legible value
| .null, _ => trivial
| .bool _, _ => trivial
| .integer _, _ => trivial
| .string _, _ => trivial
| .array items, hExact => legible_items_of_exact items hExact
| .object fields, hExact =>
    legible_fields_of_exact fields hExact

theorem legible_items_of_exact :
    (items : List Json) → ExactItems items → LegibleItems items
| [], _ => trivial
| item :: rest, hExact =>
    ⟨legible_of_exact item hExact.1,
      legible_items_of_exact rest hExact.2⟩

theorem legible_fields_of_exact :
    (fields : List (String × Json)) →
      ExactFields fields → LegibleFields fields
| [], _ => trivial
| (_, value) :: rest, hExact =>
    ⟨legible_of_exact value hExact.1,
      legible_fields_of_exact rest hExact.2⟩

end

def Blank (text : List Char) : Prop :=
  ∀ c ∈ text, Reader.isSpace c = true

theorem blank_nil : Blank [] := by
  intro c hC
  cases hC

theorem ends_nil : Ends [] := by
  intro c hC
  cases hC

theorem skip_blank
    {lead : List Char}
    (hLead : Blank lead)
    {c : Char}
    (hC : Reader.isSpace c = false)
    (rest : List Char) :
    Reader.skip (lead ++ c :: rest) = c :: rest := by
  rw [Reader.skip, List.dropWhile_append_of_pos hLead,
    List.dropWhile_cons_of_neg]
  rw [hC]
  exact Bool.noConfusion

theorem skip_cons
    {c : Char}
    (hC : Reader.isSpace c = false)
    (rest : List Char) :
    Reader.skip (c :: rest) = c :: rest :=
  skip_blank blank_nil hC rest

/- How a number starts, and nothing else that has a value. -/
theorem head_number
    {c : Char}
    (hC : c.isDigit = true ∨ c = '-') :
    Reader.isSpace c = false ∧ c ≠ ']' ∧ c ≠ quotationMark ∧
      c ≠ '[' ∧ c.toNat ≠ 123 := by
  have hNot :
      ∀ e : Char, e.isDigit = false → e ≠ '-' → c ≠ e := by
    intro e hDigit hDash hE
    rw [hE] at hC
    rcases hC with h | h
    · rw [hDigit] at h
      cases h
    · exact hDash h
  refine ⟨?_, hNot _ rfl (by decide), hNot _ rfl (by decide),
    hNot _ rfl (by decide), ?_⟩
  · rcases hC with hDigit | hDash
    · have hBounds := Numeral.toNat_of_isDigit hDigit
      unfold Reader.isSpace
      simp only [Bool.or_eq_false_iff, decide_eq_false_iff_not]
      omega
    · rw [hDash]
      rfl
  · intro hBrace
    exact hNot openBrace rfl (by decide)
      (Char.toNat_inj.mp hBrace)

/- A value starts with neither white space nor a bracket. -/
theorem head_spelled
    (gap : List Char)
    {value : Json}
    (hValue : Legible value) :
    ∃ c tail,
      spelled gap value = c :: tail ∧
        Reader.isSpace c = false ∧ c ≠ ']' := by
  cases value with
  | null => exact ⟨'n', _, rfl, rfl, by decide⟩
  | bool value =>
      cases value with
      | true => exact ⟨'t', _, rfl, rfl, by decide⟩
      | false => exact ⟨'f', _, rfl, rfl, by decide⟩
  | integer value =>
      rcases leaf_integer value ends_nil with ⟨c, tail, hText, hC, -⟩
      rcases head_number hC with ⟨hSpace, hBracket, -⟩
      exact ⟨c, tail, hText, hSpace, hBracket⟩
  | float spelling =>
      rcases leaf_float hValue ends_nil with ⟨c, tail, hText, hC, -⟩
      rcases head_number hC with ⟨hSpace, hBracket, -⟩
      exact ⟨c, tail, hText, hSpace, hBracket⟩
  | string text =>
      rcases string_pythonJsonString text [] with ⟨body, hText, -⟩
      exact ⟨quotationMark, body, hText, rfl, by decide⟩
  | array items => exact ⟨'[', _, rfl, rfl, by decide⟩
  | object fields => exact ⟨openBrace, _, rfl, rfl, by decide⟩

theorem readValue_leaf
    {lead text rest : List Char}
    {c : Char}
    {value : Json}
    (hLead : Blank lead)
    (hSpace : Reader.isSpace c = false)
    (hQuote : c ≠ quotationMark)
    (hBracket : c ≠ '[')
    (hBrace : c.toNat ≠ 123)
    (hLeaf : Reader.leaf (c :: text ++ rest) = some (value, rest))
    {fuel : Nat}
    (hFuel : (c :: text).length ≤ fuel) :
    Reader.readValue fuel (lead ++ (c :: text ++ rest)) =
      some (value, rest) := by
  cases fuel with
  | zero => cases hFuel
  | succ n =>
      rw [List.cons_append] at hLeaf ⊢
      rw [Reader.readValue, skip_blank hLead hSpace]
      dsimp only
      rw [if_neg hQuote, if_neg hBracket, if_neg hBrace, hLeaf]

/- One field, by what is read after its value. -/
theorem readFields_step
    {lead gap : List Char}
    (key : String)
    {value : Json}
    {n : Nat}
    {c : Char}
    {tail : List Char}
    (hLead : Blank lead)
    (hC : Reader.isSpace c = false)
    (hValue :
      Reader.readValue n (gap ++ (spelled gap value ++ c :: tail)) =
        some (value, c :: tail)) :
    Reader.readFields (n + 1)
        (lead ++ ((pythonJsonString key).toList ++ ':' :: gap ++
          spelled gap value ++ c :: tail)) =
      if c = ',' then
        (Reader.readFields n tail).map
          (fun read => ((key, value) :: read.1, read.2))
      else if c.toNat = 125 then
        some ([(key, value)], tail)
      else
        none := by
  rcases string_pythonJsonString key
      (':' :: (gap ++ (spelled gap value ++ c :: tail))) with
    ⟨body, hText, hRead⟩
  rw [hText, List.append_assoc, List.append_assoc,
    List.cons_append, Reader.readFields, skip_blank hLead rfl]
  dsimp only
  rw [if_neg (fun h => h rfl)]
  rw [List.cons_append, hRead]
  dsimp only
  rw [skip_cons rfl]
  dsimp only
  rw [if_neg (fun h => h rfl), hValue]
  dsimp only
  rw [skip_cons hC]

/-
  A value is read back with enough fuel for its length, before
  what may follow it.
-/
def Reads (gap : List Char) (value : Json) : Prop :=
  ∀ fuel lead rest,
    Blank lead → (spelled gap value).length ≤ fuel → Ends rest →
      Reader.readValue fuel (lead ++ (spelled gap value ++ rest)) =
        some (value, rest)

theorem reads_number
    {gap : List Char}
    {value : Json}
    (hLeaf :
      ∀ rest, Ends rest →
        ∃ c tail,
          spelled gap value = c :: tail ∧
            (c.isDigit = true ∨ c = '-') ∧
            Reader.leaf (c :: tail ++ rest) =
              some (value, rest)) :
    Reads gap value := by
  intro fuel lead rest hLead hFuel hEnds
  rcases hLeaf rest hEnds with ⟨c, tail, hText, hC, hRead⟩
  rcases head_number hC with ⟨hSpace, -, hQuote, hBracket, hBrace⟩
  rw [hText] at hFuel ⊢
  exact readValue_leaf hLead hSpace hQuote hBracket hBrace hRead
    hFuel

theorem reads_string (gap : List Char) (text : String) :
    Reads gap (.string text) := by
  intro fuel lead rest hLead hFuel _
  rcases string_pythonJsonString text rest with ⟨body, hText, hRead⟩
  have hSpelled :
      spelled gap (.string text) = quotationMark :: body :=
    hText
  rw [hSpelled] at hFuel ⊢
  cases fuel with
  | zero => cases hFuel
  | succ n =>
      rw [List.cons_append, Reader.readValue, skip_blank hLead rfl]
      dsimp only
      rw [if_pos rfl, hRead]
      rfl

/- Items are read one after the other, up to the bracket. -/
theorem readItems_spelled
    {gap : List Char}
    (hGap : Blank gap)
    {items : List Json}
    (hSome : items ≠ [])
    (hItems : ∀ item ∈ items, Reads gap item)
    (fuel : Nat)
    {lead : List Char}
    (rest : List Char)
    (hLead : Blank lead)
    (hFuel :
      ((',' :: gap).intercalate (spelledItems gap items)).length <
        fuel) :
    Reader.readItems fuel
        (lead ++
          ((',' :: gap).intercalate (spelledItems gap items) ++
            ']' :: rest)) =
      some (items, rest) := by
  induction items generalizing fuel lead with
  | nil => exact absurd rfl hSome
  | cons item items ih =>
      have hItem := hItems item List.mem_cons_self
      cases fuel with
      | zero => cases hFuel
      | succ n =>
          cases items with
          | nil =>
              rw [spelledItems, spelledItems,
                List.intercalate_singleton] at hFuel ⊢
              have hRead :=
                hItem n lead (']' :: rest) hLead (by omega)
                  (by
                    intro c hC
                    cases hC
                    exact .inr (.inl rfl))
              rw [Reader.readItems, hRead]
              rfl
          | cons next items =>
              rw [spelledItems, spelledItems,
                List.intercalate_cons_cons, ← spelledItems,
                List.length_append, List.length_append,
                List.length_cons] at hFuel
              have hNext :=
                ih (List.cons_ne_nil _ _)
                  (fun other hOther =>
                    hItems other (List.mem_cons_of_mem _ hOther))
                  n hGap (by omega)
              have hRead :=
                hItem n lead
                  (',' :: gap ++ ((',' :: gap).intercalate
                    (spelledItems gap (next :: items)) ++
                      ']' :: rest))
                  hLead (by omega)
                  (by
                    intro c hC
                    cases hC
                    exact .inl rfl)
              rw [spelledItems, spelledItems,
                List.intercalate_cons_cons, ← spelledItems,
                List.append_assoc, List.append_assoc,
                Reader.readItems, hRead]
              dsimp only
              rw [List.cons_append, skip_cons rfl]
              dsimp only
              rw [if_pos rfl, hNext]
              rfl

theorem readFields_spelled
    {gap : List Char}
    (hGap : Blank gap)
    {fields : Fields}
    (hSome : fields ≠ [])
    (hFields : ∀ field ∈ fields, Reads gap field.2)
    (fuel : Nat)
    {lead : List Char}
    (rest : List Char)
    (hLead : Blank lead)
    (hFuel :
      ((',' :: gap).intercalate (spelledFields gap fields)).length <
        fuel) :
    Reader.readFields fuel
        (lead ++
          ((',' :: gap).intercalate (spelledFields gap fields) ++
            closeBrace :: rest)) =
      some (fields, rest) := by
  induction fields generalizing fuel lead with
  | nil => exact absurd rfl hSome
  | cons field fields ih =>
      rcases field with ⟨key, value⟩
      have hValue : Reads gap value :=
        hFields (key, value) List.mem_cons_self
      cases fuel with
      | zero => cases hFuel
      | succ n =>
          cases fields with
          | nil =>
              rw [spelledFields, spelledFields,
                List.intercalate_singleton] at hFuel ⊢
              rw [List.length_append] at hFuel
              have hRead :=
                hValue n gap (closeBrace :: rest) hGap
                  (by omega)
                  (by
                    intro c hC
                    cases hC
                    exact .inr (.inr rfl))
              rw [readFields_step key hLead rfl hRead,
                if_neg (by decide), if_pos (by decide)]
          | cons next fields =>
              rcases next with ⟨nextKey, nextValue⟩
              rw [spelledFields, spelledFields,
                List.intercalate_cons_cons, ← spelledFields,
                List.length_append, List.length_append,
                List.length_append, List.length_cons] at hFuel
              have hNext :=
                ih (List.cons_ne_nil _ _)
                  (fun other hOther =>
                    hFields other (List.mem_cons_of_mem _ hOther))
                  n hGap (by omega)
              have hRead :=
                hValue n gap
                  (',' :: (gap ++ ((',' :: gap).intercalate
                    (spelledFields gap
                      ((nextKey, nextValue) :: fields)) ++
                        closeBrace :: rest)))
                  hGap (by omega)
                  (by
                    intro c hC
                    cases hC
                    exact .inl rfl)
              rw [spelledFields, spelledFields,
                List.intercalate_cons_cons, ← spelledFields,
                List.append_assoc, List.append_assoc,
                List.cons_append,
                readFields_step key hLead rfl hRead, if_pos rfl,
                hNext]
              rfl

theorem reads_array
    {gap : List Char}
    (hGap : Blank gap)
    {items : List Json}
    (hLegible : LegibleItems items)
    (hItems : ∀ item ∈ items, Reads gap item) :
    Reads gap (.array items) := by
  intro fuel lead rest hLead hFuel _
  rw [spelled, List.length_append, List.length_cons] at hFuel
  cases fuel with
  | zero => cases hFuel
  | succ n =>
      rw [spelled, List.cons_append, List.cons_append,
        List.append_assoc, List.singleton_append,
        Reader.readValue, skip_blank hLead rfl]
      dsimp only
      rw [if_neg (by decide), if_pos rfl]
      cases items with
      | nil => rfl
      | cons item items =>
          rcases head_spelled gap hLegible.1 with
            ⟨c, tail, hText, hSpace, hBracket⟩
          have hHead :
              ∃ others,
                (',' :: gap).intercalate
                    (spelledItems gap (item :: items)) ++
                    ']' :: rest =
                  c :: others := by
            rw [spelledItems, hText,
              List.intercalate_cons_cons_left]
            exact ⟨_, rfl⟩
          rcases hHead with ⟨others, hOthers⟩
          have hRead :=
            readItems_spelled hGap (List.cons_ne_nil item items)
              hItems n rest blank_nil
              (by
                rw [List.length_singleton] at hFuel
                omega)
          rw [List.nil_append] at hRead
          rw [hOthers, skip_cons hSpace, List.head?_cons, if_neg,
            ← hOthers, hRead]
          · rfl
          · intro hSame
            exact hBracket (Option.some.inj hSame)

theorem reads_object
    {gap : List Char}
    (hGap : Blank gap)
    {fields : Fields}
    (hFields : ∀ field ∈ fields, Reads gap field.2) :
    Reads gap (.object fields) := by
  intro fuel lead rest hLead hFuel _
  rw [spelled, List.length_append, List.length_cons] at hFuel
  cases fuel with
  | zero => cases hFuel
  | succ n =>
      rw [spelled, List.cons_append, List.cons_append,
        List.append_assoc, List.singleton_append,
        Reader.readValue, skip_blank hLead rfl]
      dsimp only
      rw [if_neg (by decide), if_neg (by decide),
        if_pos (by decide)]
      cases fields with
      | nil => rfl
      | cons field fields =>
          rcases field with ⟨key, value⟩
          have hHead :
              ∃ others,
                (',' :: gap).intercalate
                    (spelledFields gap ((key, value) :: fields)) ++
                    closeBrace :: rest =
                  quotationMark :: others := by
            rcases string_pythonJsonString key [] with ⟨body, hText, -⟩
            rw [spelledFields, hText, List.cons_append,
              List.cons_append, List.intercalate_cons_cons_left]
            exact ⟨_, rfl⟩
          rcases hHead with ⟨others, hOthers⟩
          have hRead :=
            readFields_spelled hGap
              (List.cons_ne_nil (key, value) fields)
              hFields n rest blank_nil
              (by
                rw [List.length_singleton] at hFuel
                omega)
          rw [List.nil_append] at hRead
          rw [hOthers, skip_cons rfl, List.head?_cons,
            if_neg (by decide), ← hOthers, hRead]
          rfl

mutual

theorem reads_legible {gap : List Char} (hGap : Blank gap) :
    (value : Json) → Legible value → Reads gap value
| .null, _ => fun _ _ _ hLead hFuel _ =>
    readValue_leaf hLead rfl (by decide) (by decide) (by decide)
      rfl hFuel
| .bool true, _ => fun _ _ _ hLead hFuel _ =>
    readValue_leaf hLead rfl (by decide) (by decide) (by decide)
      rfl hFuel
| .bool false, _ => fun _ _ _ hLead hFuel _ =>
    readValue_leaf hLead rfl (by decide) (by decide) (by decide)
      rfl hFuel
| .integer value, _ =>
    reads_number (fun _ hEnds => leaf_integer value hEnds)
| .float _, hLegible =>
    reads_number (fun _ hEnds => leaf_float hLegible hEnds)
| .string text, _ => reads_string gap text
| .array items, hLegible =>
    reads_array hGap hLegible (reads_items hGap items hLegible)
| .object fields, hLegible =>
    reads_object hGap (reads_fields hGap fields hLegible)

theorem reads_items {gap : List Char} (hGap : Blank gap) :
    (items : List Json) → LegibleItems items →
      ∀ item ∈ items, Reads gap item
| [], _, _, hItem => by cases hItem
| item :: rest, hLegible, other, hOther => by
    rcases List.mem_cons.mp hOther with h | h
    · rw [h]
      exact reads_legible hGap item hLegible.1
    · exact reads_items hGap rest hLegible.2 other h

theorem reads_fields {gap : List Char} (hGap : Blank gap) :
    (fields : List (String × Json)) → LegibleFields fields →
      ∀ field ∈ fields, Reads gap field.2
| [], _, _, hField => by cases hField
| (_, value) :: rest, hLegible, other, hOther => by
    rcases List.mem_cons.mp hOther with h | h
    · rw [h]
      exact reads_legible hGap value hLegible.1
    · exact reads_fields hGap rest hLegible.2 other h

end

theorem parse_legible
    {gap : List Char}
    (hGap : Blank gap)
    {value : Json}
    (hLegible : Legible value) :
    Reader.parse (spelled gap value) = some value := by
  have hRead :=
    reads_legible hGap value hLegible
      ((spelled gap value).length + 1) [] []
      blank_nil (Nat.le_succ _) ends_nil
  rw [List.nil_append, List.append_nil] at hRead
  rw [Reader.parse, hRead]
  exact if_pos rfl

theorem parse_spelled
    {gap : List Char}
    (hGap : Blank gap)
    {value : Json}
    (hExact : Exact value) :
    Reader.parse (spelled gap value) = some value :=
  parse_legible hGap (legible_of_exact value hExact)

--------------------
-- What Is Read
--------------------

open Json

def Ascii (text : List Char) : Prop :=
  ∀ c ∈ text, c.toNat < 128

theorem ascii_of_all
    {text : List Char}
    (hAll : text.all (fun c => c.toNat < 128) = true) :
    Ascii text := by
  intro c hC
  exact of_decide_eq_true (List.all_eq_true.mp hAll c hC)

theorem ascii_append
    {first rest : List Char}
    (hFirst : Ascii first)
    (hRest : Ascii rest) :
    Ascii (first ++ rest) := by
  intro c hC
  rcases List.mem_append.mp hC with h | h
  · exact hFirst c h
  · exact hRest c h

theorem ascii_cons
    {c : Char}
    {rest : List Char}
    (hC : c.toNat < 128)
    (hRest : Ascii rest) :
    Ascii (c :: rest) := by
  intro d hD
  rcases List.mem_cons.mp hD with h | h
  · rw [h]
    exact hC
  · exact hRest d h

theorem ascii_nil : Ascii [] := by
  intro c hC
  cases hC

theorem ascii_intercalate
    {separator : List Char}
    (hSeparator : Ascii separator)
    {texts : List (List Char)}
    (hTexts : ∀ text ∈ texts, Ascii text) :
    Ascii (separator.intercalate texts) := by
  induction texts with
  | nil => exact ascii_nil
  | cons text texts ih =>
      have hText := hTexts text List.mem_cons_self
      have hRest := ih (fun other hOther =>
        hTexts other (List.mem_cons_of_mem _ hOther))
      cases texts with
      | nil =>
          rw [List.intercalate_singleton]
          exact hText
      | cons next texts =>
          rw [List.intercalate_cons_cons]
          exact ascii_append (ascii_append hText hSeparator) hRest

theorem ascii_pythonJsonString (text : String) :
    Ascii (pythonJsonString text).toList := by
  rw [pythonJsonString, String.toList_ofList]
  apply ascii_append
  · apply ascii_cons (by decide)
    intro c hC
    rcases List.mem_flatMap.mp hC with ⟨d, -, hD⟩
    exact ascii_of_spelled (spelled_pythonJsonChar d) c hD
  · exact ascii_cons (by decide) ascii_nil

theorem ascii_digits (n : Nat) :
    Ascii (Nat.toDigits 10 n) := by
  intro c hC
  have hBounds := Numeral.toNat_of_isDigit
    (Nat.isDigit_of_mem_toDigits (by decide) (by decide) hC)
  omega

theorem ascii_integer (value : Int) :
    Ascii (toString value).toList := by
  cases value with
  | ofNat n =>
      change Ascii (Nat.repr n).toList
      rw [Nat.toList_repr]
      exact ascii_digits n
  | negSucc n =>
      change Ascii ("-" ++ Nat.repr (n + 1)).toList
      rw [String.toList_append, Nat.toList_repr]
      exact ascii_cons (by decide) (ascii_digits (n + 1))

mutual

theorem ascii_spelled {gap : List Char} (hGap : Ascii gap) :
    (value : Json) → Exact value → Ascii (spelled gap value)
| .null, _ => by
    exact ascii_of_all rfl
| .bool true, _ => by
    exact ascii_of_all rfl
| .bool false, _ => by
    exact ascii_of_all rfl
| .integer value, _ => ascii_integer value
| .string text, _ => ascii_pythonJsonString text
| .array items, hExact => by
    have hItems := ascii_items hGap items hExact
    have hSeparator : Ascii (',' :: gap) :=
      ascii_cons (by decide) hGap
    rw [spelled]
    apply ascii_append
    · exact ascii_cons (by decide)
        (ascii_intercalate hSeparator hItems)
    · exact ascii_cons (by decide) ascii_nil
| .object fields, hExact => by
    have hFields := ascii_fields hGap fields hExact
    have hSeparator : Ascii (',' :: gap) :=
      ascii_cons (by decide) hGap
    rw [spelled]
    apply ascii_append
    · exact ascii_cons (by decide)
        (ascii_intercalate hSeparator hFields)
    · exact ascii_cons (by decide) ascii_nil

theorem ascii_items {gap : List Char} (hGap : Ascii gap) :
    (items : List Json) → ExactItems items →
      ∀ text ∈ spelledItems gap items, Ascii text
| [], _, _, hText => by cases hText
| item :: rest, hExact, text, hText => by
    rw [spelledItems] at hText
    rcases List.mem_cons.mp hText with h | h
    · rw [h]
      exact ascii_spelled hGap item hExact.1
    · exact ascii_items hGap rest hExact.2 text h

theorem ascii_fields {gap : List Char} (hGap : Ascii gap) :
    (fields : List (String × Json)) → ExactFields fields →
      ∀ text ∈ spelledFields gap fields, Ascii text
| [], _, _, hText => by cases hText
| (key, value) :: rest, hExact, text, hText => by
    rw [spelledFields] at hText
    rcases List.mem_cons.mp hText with h | h
    · rw [h]
      apply ascii_append
      · exact ascii_append (ascii_pythonJsonString key)
          (ascii_cons (by decide) hGap)
      · exact ascii_spelled hGap value hExact.1
    · exact ascii_fields hGap rest hExact.2 text h

end

/- Both writers are one spelling of a blank, ASCII gap. -/
theorem writers_spelled (value : Json) :
    (pythonJsonValue value).toList = spelled [' '] value ∧
      (pythonJsonCompact value).toList = spelled [] value ∧
      (Blank [' '] ∧ Ascii [' ']) ∧ Blank [] ∧ Ascii [] := by
  have hBlank : Blank [' '] := by
    intro c hC
    rw [List.mem_singleton.mp hC]
    rfl
  have hAscii : Ascii [' '] := ascii_cons (by decide) ascii_nil
  exact ⟨toList_pythonJsonValue value,
    toList_pythonJsonCompact value, ⟨hBlank, hAscii⟩, blank_nil,
    ascii_nil⟩

/-
  Both texts of a value are ASCII and are read back as it, so
  that no two values share one; a string's is its characters,
  escaped by the rule.
-/
theorem pythonJson_faithful :
    (∀ value : Json, Exact value →
      (Ascii (pythonJsonValue value).toList ∧
        Reader.parse (pythonJsonValue value).toList =
          some value) ∧
      Ascii (pythonJsonCompact value).toList ∧
        Reader.parse (pythonJsonCompact value).toList =
          some value) ∧
      (∀ value other : Json, Exact value → Exact other →
        (pythonJsonValue value = pythonJsonValue other →
          value = other) ∧
        (pythonJsonCompact value = pythonJsonCompact other →
          value = other)) ∧
      ∀ text : String,
        (pythonJsonString text).toList =
            quotationMark :: text.toList.flatMap pythonJsonChar ++
              [quotationMark] ∧
          ∀ c ∈ text.toList,
            (pythonJsonChar c = [c] ↔ ¬ Escaped c) ∧
              (Escaped c →
                ∃ tail, tail ≠ [] ∧
                  pythonJsonChar c = backslash :: tail) := by
  have hParts :
      ∀ value : Json, Exact value →
        (Ascii (pythonJsonValue value).toList ∧
          Reader.parse (pythonJsonValue value).toList =
            some value) ∧
        Ascii (pythonJsonCompact value).toList ∧
          Reader.parse (pythonJsonCompact value).toList =
            some value := by
    intro value hExact
    rcases writers_spelled value with
      ⟨hValue, hCompact, ⟨hBlank, hAscii⟩, hNone, hEmpty⟩
    rw [hValue, hCompact]
    exact ⟨⟨ascii_spelled hAscii value hExact,
        parse_spelled hBlank hExact⟩,
      ascii_spelled hEmpty value hExact,
      parse_spelled hNone hExact⟩
  refine ⟨hParts, ?_, ?_⟩
  · intro value other hValue hOther
    rcases hParts value hValue with ⟨⟨-, hText⟩, -, hShort⟩
    rcases hParts other hOther with ⟨⟨-, hOtherText⟩, -, hOtherShort⟩
    constructor
    · intro hSame
      rw [hSame, hOtherText] at hText
      exact (Option.some.inj hText).symm
    · intro hSame
      rw [hSame, hOtherShort] at hShort
      exact (Option.some.inj hShort).symm
  · intro text
    refine ⟨?_, ?_⟩
    · rw [pythonJsonString, String.toList_ofList]
    · intro c _
      exact escape_rule c

theorem pythonJson_faithful_camera :
    Reader.parse
        (pythonJsonValue
          (.object [("zoom", .integer (-2)),
            ("name", .array [.string "Café 🎥"])])).toList =
      some
        (.object [("zoom", .integer (-2)),
          ("name", .array [.string "Café 🎥"])]) :=
  (pythonJson_faithful.1
    (.object [("zoom", .integer (-2)),
      ("name", .array [.string "Café 🎥"])])
    ⟨trivial, ⟨trivial, trivial⟩, trivial⟩).1.2

end Audit

end SentinelCommand
