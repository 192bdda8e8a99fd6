import Mathlib.Data.Prod.Lex
import Mathlib.Order.Lattice.Nat

/-
  The version gate of `versions.rs`, and the version that a
  registration or a heartbeat stores: the dashboard and the
  next heartbeat check the stored one again.

  Correctness is proven by:
    * `Versions.parseVersion_formatVersion`
    * `Versions.checkNodeVersion_stored`
-/

--------------------
-- Versions
--------------------

namespace SentinelCommand

namespace Versions

/- Ordered by the first part that differs. -/
abbrev Version : Type :=
  Nat ×ₗ Nat ×ₗ Nat

def version (major minor patch : Nat) : Version :=
  toLex (major, toLex (minor, patch))

def isBlank (c : Char) : Bool :=
  c ∈ [' ', '\t', '\n', '\r', '\x0b', '\x0c']

/- What a `u64` does not hold is zero. -/
def parseU64 (digits : List Char) : Nat :=
  let number := Nat.ofDigitChars 10 digits 0
  if number < 2 ^ 64 then number else 0

def part (chars : List Char) : Option (Nat × List Char) :=
  let digits := chars.takeWhile Char.isDigit
  if digits = [] then
    none
  else
    some (parseU64 digits, chars.drop digits.length)

def point : List Char → Option (List Char)
| '.' :: rest => some rest
| _ => none

def parts (chars : List Char) : Option Version := do
  let (major, afterMajor) ← part chars
  let (minor, afterMinor) ← part (← point afterMajor)
  let (patch, _) ← part (← point afterMinor)
  return version major minor patch

def withoutV : List Char → List Char
| 'v' :: rest => rest
| chars => chars

/- What does not parse is older than any release. -/
def parseVersion (reported : Option String) : Version :=
  match reported.filter (fun text => text ≠ "") with
  | none => version 0 0 0
  | some text =>
      (parts (withoutV (text.toList.dropWhile isBlank))).getD
        (version 0 0 0)

def formatVersion (v : Version) : String :=
  toString (ofLex v).1 ++ "." ++
    toString (ofLex (ofLex v).2).1 ++ "." ++
      toString (ofLex (ofLex v).2).2

structure NodeCheck where
  reported : Option String
  parsed : String
  supported : Bool
  minSupported : String
  latest : String
  updateAvailable : Option String

/- A version that is missing is supported. -/
def checkNodeVersion
    (reported : Option String)
    (minSupported latest : String) : NodeCheck :=
  let parsed := parseVersion reported
  let minParts := parseVersion (some minSupported)
  let latestParts := parseVersion (some latest)
  { reported := reported
    parsed := formatVersion parsed
    supported :=
      match reported.filter (fun text => text ≠ "") with
      | some _ => minParts ≤ parsed
      | none => true
    minSupported := formatVersion minParts
    latest := formatVersion latestParts
    updateAvailable :=
      if parsed < latestParts then
        some (formatVersion latestParts)
      else
        none }

/- The column after a registration or a heartbeat. -/
def storedVersion
    (reported : Option String)
    (minSupported latest : String) : Option String :=
  reported.map
    (fun _ =>
      (checkNodeVersion reported minSupported latest).parsed)

theorem oldest_le (v : Version) : version 0 0 0 ≤ v := by
  rw [Prod.Lex.le_iff, Prod.Lex.le_iff]
  simp only [version, ofLex_toLex]
  omega

--------------------
-- What Is Stored
--------------------

/- Each part is what a `u64` holds. -/
def Fits (v : Version) : Prop :=
  (ofLex v).1 < 2 ^ 64 ∧
    (ofLex (ofLex v).2).1 < 2 ^ 64 ∧
      (ofLex (ofLex v).2).2 < 2 ^ 64

theorem part_lt
    {chars rest : List Char}
    {number : Nat}
    (hPart : part chars = some (number, rest)) :
    number < 2 ^ 64 := by
  unfold part parseU64 at hPart
  grind

theorem parseVersion_fits (reported : Option String) :
    Fits (parseVersion reported) := by
  have hZero : Fits (version 0 0 0) := by
    unfold Fits
    decide
  unfold parseVersion
  split
  · exact hZero
  · rename_i text _
    cases hParts :
        parts (withoutV (text.toList.dropWhile isBlank)) with
    | none => exact hZero
    | some v =>
        simp only [parts, Option.bind_eq_bind,
          Option.bind_eq_some_iff, Option.pure_def,
          Option.some.injEq] at hParts
        rcases hParts with
          ⟨⟨major, _⟩, hMajor, _, -, ⟨minor, _⟩, hMinor, _, -,
            ⟨patch, _⟩, hPatch, rfl⟩
        exact ⟨part_lt hMajor, part_lt hMinor, part_lt hPatch⟩

theorem part_toDigits
    {number : Nat}
    {rest : List Char}
    (hNumber : number < 2 ^ 64)
    (hRest : rest.head?.all (fun c => !c.isDigit) = true) :
    part (Nat.toDigits 10 number ++ rest) =
      some (number, rest) := by
  have hDigits :
      (Nat.toDigits 10 number ++ rest).takeWhile Char.isDigit =
        Nat.toDigits 10 number := by
    rw [List.takeWhile_append_of_pos
      (fun c hC =>
        Nat.isDigit_of_mem_toDigits (by decide) (by decide) hC)]
    cases rest with
    | nil => simp
    | cons c more =>
        have hStop : c.isDigit = false := by simpa using hRest
        simp [hStop]
  simp only [part, parseU64, hDigits, Nat.toDigits_ne_nil,
    if_false, Nat.ofDigitChars_ten_toDigits, hNumber, if_true,
    List.drop_left]

/- A text that starts with a digit has nothing to skip. -/
theorem withoutV_of_digit
    {c : Char}
    {rest : List Char}
    (hDigit : c.isDigit = true) :
    withoutV ((c :: rest).dropWhile isBlank) = c :: rest := by
  have hBlank : isBlank c = false := by
    rw [isBlank, decide_eq_false_iff_not]
    intro hIn
    simp only [List.mem_cons, List.not_mem_nil, or_false] at hIn
    rcases hIn with rfl | rfl | rfl | rfl | rfl | rfl <;>
      cases hDigit
  rw [List.dropWhile_cons_of_neg (by simp [hBlank])]
  unfold withoutV
  split
  · rename_i hV
    cases hV
    cases hDigit
  · rfl

theorem formatVersion_ne_empty (v : Version) :
    formatVersion v ≠ "" := by
  intro hEmpty
  have hLength := congrArg String.length hEmpty
  simp [formatVersion] at hLength

/- A version is read as it was written. -/
theorem parseVersion_formatVersion
    {v : Version}
    (hFits : Fits v) :
    parseVersion (some (formatVersion v)) = v := by
  have hText :
      (formatVersion v).toList =
        Nat.toDigits 10 (ofLex v).1 ++
          '.' :: (Nat.toDigits 10 (ofLex (ofLex v).2).1 ++
            '.' :: (Nat.toDigits 10 (ofLex (ofLex v).2).2 ++
              [])) := by
    simp [formatVersion, Nat.toString_eq_repr, Nat.toList_repr]
  have hParts : parts (formatVersion v).toList = some v := by
    have hPoint :
        ∀ rest : List Char,
          ('.' :: rest).head?.all (fun c => !c.isDigit) = true :=
      fun _ => rfl
    have hEnd :
        ([] : List Char).head?.all (fun c => !c.isDigit) = true :=
      rfl
    rw [hText, parts, part_toDigits hFits.1 (hPoint _)]
    simp only [Option.bind_eq_bind, Option.bind_some, point,
      part_toDigits hFits.2.1 (hPoint _),
      part_toDigits hFits.2.2 hEnd]
    rfl
  cases hFirst : Nat.toDigits 10 (ofLex v).1 with
  | nil => exact absurd hFirst Nat.toDigits_ne_nil
  | cons c rest =>
      have hDigit : c.isDigit = true :=
        Nat.isDigit_of_mem_toDigits (by decide) (by decide)
          (hFirst ▸ List.mem_cons_self)
      rw [hFirst, List.cons_append] at hText
      simp only [parseVersion, Option.filter,
        formatVersion_ne_empty, ne_eq, not_false_eq_true,
        decide_true, if_true]
      rw [hText, withoutV_of_digit hDigit, ← hText, hParts]
      rfl

/-
  The stored version is checked as the reported one was. Only
  an empty report, which passes as a missing one and is stored
  as `0.0.0`, is refused later, and that by any real floor.
-/
theorem checkNodeVersion_stored
    (reported : Option String)
    (minSupported latest : String) :
    let check := checkNodeVersion reported minSupported latest
    let again :=
      checkNodeVersion
        (storedVersion reported minSupported latest)
        minSupported latest
    again.parsed = check.parsed ∧
      again.minSupported = check.minSupported ∧
      again.latest = check.latest ∧
      again.updateAvailable = check.updateAvailable ∧
      (again.supported = check.supported ↔
        (reported = some "" →
          parseVersion (some minSupported) =
            version 0 0 0)) := by
  have hAgain :
      parseVersion
          (storedVersion reported minSupported latest) =
        parseVersion reported := by
    cases reported with
    | none => rfl
    | some text =>
        exact
          parseVersion_formatVersion (parseVersion_fits _)
  intro check again
  refine ⟨?_, rfl, rfl, ?_, ?_⟩
  · exact congrArg formatVersion hAgain
  · simp only [again, check, checkNodeVersion, hAgain]
  · cases hReported : reported with
    | none => simp [again, check, hReported, storedVersion]
    | some text =>
        have hLater :
            again.supported =
              decide
                (parseVersion (some minSupported) ≤
                  parseVersion reported) := by
          rw [← hAgain]
          simp [again, checkNodeVersion, storedVersion,
            hReported, Option.filter, formatVersion_ne_empty]
        rw [hLater]
        by_cases hEmpty : text = ""
        · subst hEmpty
          have hZero :
              parseVersion (some "") = version 0 0 0 := rfl
          have hOldest :=
            oldest_le (parseVersion (some minSupported))
          simp only [check, checkNodeVersion, hReported, hZero,
            Option.filter, ne_eq, not_true_eq_false,
            decide_false, Bool.false_eq_true, if_false,
            decide_eq_true_eq, forall_const]
          exact ⟨fun h => le_antisymm h hOldest, Eq.le⟩
        · simp [check, checkNodeVersion, hReported,
            Option.filter, hEmpty]

end Versions

end SentinelCommand
