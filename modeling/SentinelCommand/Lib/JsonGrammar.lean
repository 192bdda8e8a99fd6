import SentinelCommand.Lib.Utf16

/-
  The grammar of JSON over texts and what is left of them. A
  rule relates a text to the rest that follows what the rule
  derives; the literal names and the depth to which
  containers are nested are parameters.

  Key definitions include:
    * `JsonGrammar.Chars`
    * `JsonGrammar.Number`
    * `JsonGrammar.Container`, `JsonGrammar.Member`
    * `JsonGrammar.Value`, `JsonGrammar.Document`

  Key theorems include:
    * `JsonGrammar.Blank.eq_dropWhile`
    * `JsonGrammar.Sequence.first`
    * `JsonGrammar.starts_value`
-/

--------------------
-- Characters
--------------------

namespace JsonGrammar

def mark : Char := Char.ofNat 34

def solidus : Char := Char.ofNat 92

def openBrace : Char := Char.ofNat 123

def closeBrace : Char := Char.ofNat 125

def isWs (c : Char) : Bool :=
  c = ' ' || c = '\t' || c = '\n' || c = '\r'

/- The letters of a short escape. -/
def isShort (c : Char) : Bool :=
  c = mark || c = solidus || c = '/' || c = 'b' || c = 'f' ||
    c = 'n' || c = 'r' || c = 't'

def isHex (c : Char) : Bool :=
  (Utf16.hexDigit c).isSome

/- A character that stands for itself in a string. -/
def isPlain (c : Char) : Bool :=
  c ≠ mark && c ≠ solidus && 32 ≤ c.toNat

--------------------
-- Rules
--------------------

/- Any white space. -/
inductive Blank : List Char → List Char → Prop where
  | none {rest : List Char} : Blank rest rest
  | cons {c : Char} {text rest : List Char} :
      isWs c = true → Blank text rest → Blank (c :: text) rest

/- A string after its opening mark, the closing one included. -/
inductive Chars : List Char → List Char → Prop where
  | close {rest : List Char} : Chars (mark :: rest) rest
  | plain {c : Char} {text rest : List Char} :
      isPlain c = true → Chars text rest → Chars (c :: text) rest
  | short {e : Char} {text rest : List Char} :
      isShort e = true → Chars text rest →
        Chars (solidus :: e :: text) rest
  | unit {hex text rest : List Char} :
      hex.length = 4 → (∀ c ∈ hex, isHex c = true) →
        Chars text rest →
          Chars (solidus :: 'u' :: (hex ++ text)) rest

inductive Digits : List Char → List Char → Prop where
  | none {rest : List Char} : Digits rest rest
  | cons {c : Char} {text rest : List Char} :
      c.isDigit = true → Digits text rest → Digits (c :: text) rest

inductive Minus : List Char → List Char → Prop where
  | none {rest : List Char} : Minus rest rest
  | dash {rest : List Char} : Minus ('-' :: rest) rest

inductive Whole : List Char → List Char → Prop where
  | zero {rest : List Char} : Whole ('0' :: rest) rest
  | digits {c : Char} {text rest : List Char} :
      c.isDigit = true → c ≠ '0' → Digits text rest →
        Whole (c :: text) rest

inductive Fraction : List Char → List Char → Prop where
  | none {rest : List Char} : Fraction rest rest
  | digits {c : Char} {text rest : List Char} :
      c.isDigit = true → Digits text rest →
        Fraction ('.' :: c :: text) rest

inductive Exponent : List Char → List Char → Prop where
  | none {rest : List Char} : Exponent rest rest
  | bare {e c : Char} {text rest : List Char} :
      (e = 'e' ∨ e = 'E') → c.isDigit = true →
        Digits text rest → Exponent (e :: c :: text) rest
  | signed {e s c : Char} {text rest : List Char} :
      (e = 'e' ∨ e = 'E') → (s = '-' ∨ s = '+') →
        c.isDigit = true → Digits text rest →
          Exponent (e :: s :: c :: text) rest

inductive Number : List Char → List Char → Prop where
  | parts {text a b c rest : List Char} :
      Minus text a → Whole a b → Fraction b c →
        Exponent c rest → Number text rest

/- A value without a container. -/
inductive Leaf
    (words : List (List Char)) : List Char → List Char → Prop where
  | word {w rest : List Char} : w ∈ words → Leaf words (w ++ rest) rest
  | string {text rest : List Char} :
      Chars text rest → Leaf words (mark :: text) rest
  | number {text rest : List Char} :
      Number text rest → Leaf words text rest

/- Items with commas between them, up to the closing sign. -/
inductive Sequence
    (item : List Char → List Char → Prop)
    (close : Char) : List Char → List Char → Prop where
  | last {text a b rest : List Char} :
      Blank text a → item a b → Blank b (close :: rest) →
        Sequence item close text rest
  | more {text a b c rest : List Char} :
      Blank text a → item a b → Blank b (',' :: c) →
        Sequence item close c rest → Sequence item close text rest

/- A container after its opening sign. -/
inductive Container
    (item : List Char → List Char → Prop)
    (close : Char) : List Char → List Char → Prop where
  | empty {text rest : List Char} :
      Blank text (close :: rest) → Container item close text rest
  | filled {text rest : List Char} :
      Sequence item close text rest → Container item close text rest

inductive Member
    (value : List Char → List Char → Prop) :
    List Char → List Char → Prop where
  | pair {text a b c rest : List Char} :
      Chars text a → Blank a (':' :: b) → Blank b c →
        value c rest → Member value (mark :: text) rest

inductive Nested
    (value : List Char → List Char → Prop) :
    List Char → List Char → Prop where
  | array {text rest : List Char} :
      Container value ']' text rest → Nested value ('[' :: text) rest
  | object {text rest : List Char} :
      Container (Member value) closeBrace text rest →
        Nested value (openBrace :: text) rest

/- A value whose containers are nested that deep at most. -/
def Value
    (words : List (List Char)) :
    Nat → List Char → List Char → Prop
| 0, text, rest => Leaf words text rest
| depth + 1, text, rest =>
    Leaf words text rest ∨ Nested (Value words depth) text rest

/- One value, with white space around it. -/
def Document
    (words : List (List Char))
    (depth : Nat)
    (text : List Char) : Prop :=
  ∃ a b, Blank text a ∧ Value words depth a b ∧ Blank b []

theorem blank_dropWhile (text : List Char) :
    Blank text (text.dropWhile isWs) := by
  induction text with
  | nil => exact .none
  | cons c rest ih =>
      cases hC : isWs c with
      | true =>
          rw [List.dropWhile_cons_of_pos hC]
          exact .cons hC ih
      | false =>
          rw [List.dropWhile_cons_of_neg
            (by rw [hC]; exact Bool.noConfusion)]
          exact .none

/- Where the rest has no white space, all of it was passed. -/
theorem Blank.eq_dropWhile
    {text rest : List Char}
    (hBlank : Blank text rest)
    (hRest : ∀ c ∈ rest.head?, isWs c = false) :
    text.dropWhile isWs = rest := by
  induction hBlank with
  | @none rest =>
      cases rest with
      | nil => rfl
      | cons c rest =>
          have hC := hRest c rfl
          exact List.dropWhile_cons_of_neg
            (by rw [hC]; exact Bool.noConfusion)
  | cons hC _ ih =>
      rw [List.dropWhile_cons_of_pos hC]
      exact ih hRest

theorem digits_dropWhile (text : List Char) :
    Digits text (text.dropWhile Char.isDigit) := by
  induction text with
  | nil => exact .none
  | cons c rest ih =>
      cases hC : c.isDigit with
      | true =>
          rw [List.dropWhile_cons_of_pos hC]
          exact .cons hC ih
      | false =>
          rw [List.dropWhile_cons_of_neg
            (by rw [hC]; exact Bool.noConfusion)]
          exact .none

theorem Digits.eq_dropWhile
    {text rest : List Char}
    (hDigits : Digits text rest)
    (hRest : ∀ c ∈ rest.head?, c.isDigit = false) :
    text.dropWhile Char.isDigit = rest := by
  induction hDigits with
  | @none rest =>
      cases rest with
      | nil => rfl
      | cons c rest =>
          have hC := hRest c rfl
          exact List.dropWhile_cons_of_neg
            (by rw [hC]; exact Bool.noConfusion)
  | cons hC _ ih =>
      rw [List.dropWhile_cons_of_pos hC]
      exact ih hRest

--------------------
-- Strings
--------------------

theorem not_chars_nil (rest : List Char) :
    ¬ Chars [] rest := by
  intro hChars
  cases hChars

theorem chars_mark_iff (text rest : List Char) :
    Chars (mark :: text) rest ↔ rest = text := by
  constructor
  · intro hChars
    cases hChars with
    | close => rfl
    | plain hPlain _ => cases hPlain
  · intro hSame
    rw [hSame]
    exact .close

theorem chars_plain_iff
    {c : Char}
    (hC : isPlain c = true)
    (text rest : List Char) :
    Chars (c :: text) rest ↔ Chars text rest := by
  constructor
  · intro hChars
    cases hChars with
    | close => cases hC
    | plain _ hText => exact hText
    | short _ _ => cases hC
    | unit _ _ _ => cases hC
  · exact .plain hC

/- No rule starts with a control character. -/
theorem not_chars_control
    {c : Char}
    (hC : c.toNat < 32)
    (text rest : List Char) :
    ¬ Chars (c :: text) rest := by
  intro hChars
  cases hChars with
  | close => exact absurd hC (by decide)
  | plain hPlain _ =>
      unfold isPlain at hPlain
      simp only [Bool.and_eq_true, decide_eq_true_eq] at hPlain
      omega
  | short _ _ => exact absurd hC (by decide)
  | unit _ _ _ => exact absurd hC (by decide)

theorem not_chars_solidus (rest : List Char) :
    ¬ Chars [solidus] rest := by
  intro hChars
  cases hChars with
  | plain hPlain _ => cases hPlain

theorem chars_escape_iff
    {e : Char}
    (hE : e ≠ 'u')
    (text rest : List Char) :
    Chars (solidus :: e :: text) rest ↔
      isShort e = true ∧ Chars text rest := by
  constructor
  · intro hChars
    cases hChars with
    | plain hPlain _ => cases hPlain
    | short hShort hText => exact ⟨hShort, hText⟩
    | unit _ _ _ => exact absurd rfl hE
  · intro ⟨hShort, hText⟩
    exact .short hShort hText

theorem chars_unit_iff
    {hex : List Char}
    (hLength : hex.length = 4)
    (text rest : List Char) :
    Chars (solidus :: 'u' :: (hex ++ text)) rest ↔
      (∀ c ∈ hex, isHex c = true) ∧ Chars text rest := by
  constructor
  · intro hChars
    generalize hWhole : hex ++ text = whole at hChars
    cases hChars with
    | plain hPlain _ => cases hPlain
    | short hShort _ => cases hShort
    | @unit other after _ hOther hHex hText =>
        obtain ⟨hSame, hAfter⟩ :=
          List.append_inj hWhole (hLength.trans hOther.symm)
        rw [hSame, hAfter]
        exact ⟨hHex, hText⟩
  · intro ⟨hHex, hText⟩
    exact .unit hLength hHex hText

/- An escape of a unit needs its digits and a closing mark. -/
theorem not_chars_unit_short
    {text : List Char}
    (hText : text.length ≤ 4)
    (rest : List Char) :
    ¬ Chars (solidus :: 'u' :: text) rest := by
  intro hChars
  cases hChars with
  | plain hPlain _ => cases hPlain
  | short hShort _ => cases hShort
  | @unit hex after _ hHex _ hAfter =>
      rw [List.length_append, hHex] at hText
      have hNil : after = [] := by
        apply List.eq_nil_of_length_eq_zero
        omega
      rw [hNil] at hAfter
      exact not_chars_nil rest hAfter

--------------------
-- Numbers
--------------------

/- No more digits. -/
def AfterDigits (rest : List Char) : Prop :=
  ∀ c ∈ rest.head?, c.isDigit = false

/- No more digits, nor a fraction. -/
def AfterFraction (rest : List Char) : Prop :=
  ∀ c ∈ rest.head?, c.isDigit = false ∧ c ≠ '.'

/- Nothing that a number could go on with. -/
def AfterNumber (rest : List Char) : Prop :=
  ∀ c ∈ rest.head?,
    c.isDigit = false ∧ c ≠ '.' ∧ c ≠ 'e' ∧ c ≠ 'E'

/- What may stand behind a value or a name. -/
def Follows (rest : List Char) : Prop :=
  ∀ c ∈ rest.head?,
    isWs c = true ∨ c = ',' ∨ c = ':' ∨ c = ']' ∨ c = closeBrace

def StartsDigit (text : List Char) : Prop :=
  ∃ c rest, text = c :: rest ∧ c.isDigit = true

theorem isDigit_exponent
    {c : Char}
    (hC : c = 'e' ∨ c = 'E') :
    c.isDigit = false := by
  rcases hC with rfl | rfl <;> rfl

theorem isDigit_sign
    {c : Char}
    (hC : c = '-' ∨ c = '+') :
    c.isDigit = false := by
  rcases hC with rfl | rfl <;> rfl

theorem minus_iff (text rest : List Char) :
    Minus text rest ↔ rest = text ∨ text = '-' :: rest := by
  constructor
  · intro hMinus
    cases hMinus with
    | none => exact Or.inl rfl
    | dash => exact Or.inr rfl
  · rintro (hSame | hDash)
    · rw [hSame]
      exact .none
    · rw [hDash]
      exact .dash

theorem Whole.startsDigit
    {text rest : List Char}
    (hWhole : Whole text rest) :
    StartsDigit text := by
  cases hWhole with
  | zero => exact ⟨'0', _, rfl, rfl⟩
  | digits hC _ _ => exact ⟨_, _, rfl, hC⟩

theorem Fraction.afterDigits
    {text rest : List Char}
    (hFraction : Fraction text rest)
    (hRest : AfterDigits rest) :
    AfterDigits text := by
  cases hFraction with
  | none => exact hRest
  | digits _ _ =>
      intro c hC
      cases hC
      rfl

theorem Exponent.afterFraction
    {text rest : List Char}
    (hExponent : Exponent text rest)
    (hRest : AfterFraction rest) :
    AfterFraction text := by
  have hLetter :
      ∀ {e : Char} {tail : List Char},
        (e = 'e' ∨ e = 'E') → AfterFraction (e :: tail) := by
    intro e tail hE c hC
    cases hC
    rcases hE with rfl | rfl
    · exact ⟨rfl, by decide⟩
    · exact ⟨rfl, by decide⟩
  cases hExponent with
  | none => exact hRest
  | bare hE _ _ => exact hLetter hE
  | signed hE _ _ _ => exact hLetter hE

theorem AfterFraction.afterDigits
    {rest : List Char}
    (hRest : AfterFraction rest) :
    AfterDigits rest :=
  fun c hC => (hRest c hC).1

theorem AfterNumber.afterFraction
    {rest : List Char}
    (hRest : AfterNumber rest) :
    AfterFraction rest :=
  fun c hC => ⟨(hRest c hC).1, (hRest c hC).2.1⟩

--------------------
-- Starts
--------------------

/- A first sign that is no white space and closes nothing. -/
def Starts (text : List Char) : Prop :=
  ∃ c rest,
    text = c :: rest ∧ isWs c = false ∧
      c ≠ ']' ∧ c ≠ closeBrace

theorem isWs_digit
    {c : Char}
    (hC : c.isDigit = true) :
    isWs c = false := by
  cases hWs : isWs c with
  | false => rfl
  | true =>
      unfold isWs at hWs
      simp only [Bool.or_eq_true, decide_eq_true_eq] at hWs
      rcases hWs with ((rfl | rfl) | rfl) | rfl
      all_goals cases hC

theorem StartsDigit.starts
    {text : List Char}
    (hText : StartsDigit text) :
    Starts text := by
  obtain ⟨c, rest, hSame, hC⟩ := hText
  refine ⟨c, rest, hSame, isWs_digit hC, ?_, ?_⟩
  · rintro rfl
    cases hC
  · rintro rfl
    cases hC

/- A number starts with a digit or with a sign before one. -/
theorem Number.starts_cases
    {text rest : List Char}
    (hNumber : Number text rest) :
    StartsDigit text ∨
      ∃ tail, text = '-' :: tail ∧ StartsDigit tail := by
  cases hNumber with
  | parts hMinus hWhole _ _ =>
      rcases (minus_iff _ _).mp hMinus with hSame | hDash
      · left
        rw [← hSame]
        exact hWhole.startsDigit
      · right
        exact ⟨_, hDash, hWhole.startsDigit⟩

theorem Number.starts
    {text rest : List Char}
    (hNumber : Number text rest) :
    Starts text := by
  rcases hNumber.starts_cases with hDigit | ⟨tail, hText, _⟩
  · exact hDigit.starts
  · exact ⟨'-', tail, hText, rfl, by decide, by decide⟩

theorem starts_mark (text : List Char) :
    Starts (mark :: text) :=
  ⟨mark, text, rfl, rfl, by decide, by decide⟩

theorem Member.starts
    {value : List Char → List Char → Prop}
    {text rest : List Char}
    (hMember : Member value text rest) :
    Starts text := by
  cases hMember with
  | pair _ _ _ _ => exact starts_mark _

theorem Nested.starts
    {value : List Char → List Char → Prop}
    {text rest : List Char}
    (hNested : Nested value text rest) :
    Starts text := by
  cases hNested with
  | array _ => exact ⟨'[', _, rfl, rfl, by decide, by decide⟩
  | object _ =>
      exact ⟨openBrace, _, rfl, rfl, by decide, by decide⟩

theorem Leaf.starts
    {words : List (List Char)}
    (hWords : ∀ w ∈ words, ∀ rest, Starts (w ++ rest))
    {text rest : List Char}
    (hLeaf : Leaf words text rest) :
    Starts text := by
  cases hLeaf with
  | word hWord => exact hWords _ hWord rest
  | string _ => exact starts_mark _
  | number hNumber => exact hNumber.starts

theorem starts_value
    {words : List (List Char)}
    (hWords : ∀ w ∈ words, ∀ rest, Starts (w ++ rest))
    {depth : Nat}
    {text rest : List Char}
    (hValue : Value words depth text rest) :
    Starts text := by
  cases depth with
  | zero => exact Leaf.starts hWords hValue
  | succ depth =>
      rcases hValue with hLeaf | hNested
      · exact hLeaf.starts hWords
      · exact hNested.starts

/- White space before what starts is all that is passed. -/
theorem Starts.dropWhile
    {text rest : List Char}
    (hRest : Starts rest)
    (hBlank : Blank text rest) :
    text.dropWhile isWs = rest := by
  apply hBlank.eq_dropWhile
  obtain ⟨c, tail, hSame, hWs, _⟩ := hRest
  rw [hSame]
  intro d hD
  cases hD
  exact hWs

theorem Blank.trans
    {text middle rest : List Char}
    (hFirst : Blank text middle)
    (hSecond : Blank middle rest) :
    Blank text rest := by
  induction hFirst with
  | none => exact hSecond
  | cons hC _ ih => exact .cons hC (ih hSecond)

theorem Sequence.of_blank
    {item : List Char → List Char → Prop}
    {close : Char}
    {text middle rest : List Char}
    (hBlank : Blank text middle)
    (hSequence : Sequence item close middle rest) :
    Sequence item close text rest := by
  cases hSequence with
  | last hFirst hItem hEnd =>
      exact .last (hBlank.trans hFirst) hItem hEnd
  | more hFirst hItem hComma hMore =>
      exact .more (hBlank.trans hFirst) hItem hComma hMore

/- The first item of a sequence, without white space before. -/
theorem Sequence.first
    {item : List Char → List Char → Prop}
    {close : Char}
    (hStarts : ∀ text rest, item text rest → Starts text)
    {text rest : List Char}
    (hSequence : Sequence item close text rest) :
    ∃ middle,
      item (text.dropWhile isWs) middle ∧
        (Blank middle (close :: rest) ∨
          ∃ tail,
            Blank middle (',' :: tail) ∧
              Sequence item close tail rest) := by
  cases hSequence with
  | last hFirst hItem hEnd =>
      have hSame := (hStarts _ _ hItem).dropWhile hFirst
      rw [← hSame] at hItem
      exact ⟨_, hItem, Or.inl hEnd⟩
  | more hFirst hItem hComma hMore =>
      have hSame := (hStarts _ _ hItem).dropWhile hFirst
      rw [← hSame] at hItem
      exact ⟨_, hItem, Or.inr ⟨_, hComma, hMore⟩⟩

theorem Follows.afterNumber
    {rest : List Char}
    (hRest : Follows rest) :
    AfterNumber rest := by
  intro c hC
  have hNot :
      ∀ d : Char,
        isWs d = false → d ≠ ',' → d ≠ ':' → d ≠ ']' →
          d ≠ closeBrace → c ≠ d := by
    rintro d hWs h1 h2 h3 h4 rfl
    rcases hRest c hC with h | h | h | h | h
    · rw [hWs] at h
      cases h
    · exact h1 h
    · exact h2 h
    · exact h3 h
    · exact h4 h
  refine ⟨?_, ?_, ?_, ?_⟩
  · cases hDigit : c.isDigit with
    | false => rfl
    | true =>
        rcases hRest c hC with h | h | h | h | h
        · rw [isWs_digit hDigit] at h
          cases h
        all_goals
          rw [h] at hDigit
          cases hDigit
  all_goals
    apply hNot <;> first | rfl | decide

/- A sign may follow, also behind white space. -/
theorem Blank.follows
    {text rest : List Char}
    (hBlank : Blank text rest)
    (hRest : Follows rest) :
    Follows text := by
  cases hBlank with
  | none => exact hRest
  | cons hC _ =>
      intro d hD
      cases hD
      exact Or.inl hC

theorem follows_of_sign
    {c : Char}
    (hC : c = ',' ∨ c = ':' ∨ c = ']' ∨ c = closeBrace)
    (rest : List Char) :
    Follows (c :: rest) := by
  intro d hD
  cases hD
  exact Or.inr hC

end JsonGrammar
