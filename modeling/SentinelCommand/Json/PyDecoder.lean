import Mathlib.Algebra.Group.Nat.Defs
import SentinelCommand.Json
import SentinelCommand.Lib.JsonGrammar

/-
  The decoder of `pyjson.rs`, which tells why a text would be
  refused: a scanner by index with look-aheads.

  An index or a difference out of range is a panic. The depth
  is what is left of it, which a container uses up; a loop has
  one round more than there are characters.

  Key definitions include:
    * `PyJson.scanString`, `PyJson.number`
    * `PyJson.object`, `PyJson.array`
    * `PyJson.scanOnce`
-/

--------------------
-- Results
--------------------

namespace SentinelCommand

namespace PyJson

open JsonGrammar

inductive DecodeError where
  | invalid (msg : String) (pos : Nat)
  | tooDeep

inductive Stop where
  | value (idx : Nat)
  | msg (text : String) (pos : Nat)
  | tooDeep

/- A stop of the scanner, or what should not happen to it. -/
inductive Halt where
  | stop (s : Stop)
  | panics
  | endless

abbrev Scan : Type :=
  Except Halt Nat

def maxDepth : Nat := 900

def invalidControl : String := "Invalid control character at"

def unterminated : String := "Unterminated string starting at"

def invalidEscape : String :=
  "Invalid " ++ String.ofList [solidus] ++ "escape"

def invalidUnit : String :=
  "Invalid " ++ String.ofList [solidus] ++ "uXXXX escape"

def expectingName : String :=
  "Expecting property name enclosed in double quotes"

def expectingColon : String := "Expecting ':' delimiter"

def expectingComma : String := "Expecting ',' delimiter"

def stopAt (text : String) (pos : Nat) : Halt :=
  .stop (.msg text pos)

/- `s[i]`. -/
def index (s : List Char) (i : Nat) : Except Halt Char :=
  match s[i]? with
  | some c => .ok c
  | none => .error .panics

def sub (a b : Nat) : Except Halt Nat :=
  if b ≤ a then .ok (a - b) else .error .panics

def skipWs (s : List Char) (i : Nat) : Nat :=
  i + ((s.drop i).takeWhile isWs).length

def digit (s : List Char) (i : Nat) : Bool :=
  (s[i]?).any Char.isDigit

def skipDigits (s : List Char) (i : Nat) : Nat :=
  i + ((s.drop i).takeWhile Char.isDigit).length

def endIdx (s : List Char) : Int :=
  (s.length : Int) - 1

def afterMinus (s : List Char) (start : Nat) : Scan :=
  if s[start]? = some '-' then
    if (start + 1 : Nat) > endIdx s then
      .error (.stop (.value start))
    else
      .ok (start + 1)
  else
    .ok start

def afterWhole (s : List Char) (start idx : Nat) : Scan :=
  match s[idx]? with
  | none => .error (.stop (.value start))
  | some c =>
      if c.isDigit ∧ c ≠ '0' then
        .ok (skipDigits s (idx + 1))
      else if c = '0' then
        .ok (idx + 1)
      else
        .error (.stop (.value start))

/- A point needs a digit after it. -/
def afterFraction (s : List Char) (idx : Nat) : Scan :=
  if idx < endIdx s then do
    let c ← index s idx
    if c = '.' ∧ digit s (idx + 1) then
      .ok (skipDigits s (idx + 2))
    else
      .ok idx
  else
    .ok idx

def afterSign (s : List Char) (idx : Nat) : Scan :=
  if idx < endIdx s then do
    let c ← index s idx
    if c = '-' ∨ c = '+' then
      .ok (idx + 1)
    else
      .ok idx
  else
    .ok idx

/- Without digits the letter is left as extra data. -/
def afterExponent (s : List Char) (idx : Nat) : Scan :=
  if idx < endIdx s then do
    let c ← index s idx
    if c = 'e' ∨ c = 'E' then do
      let signed ← afterSign s (idx + 1)
      let last ← sub (skipDigits s signed) 1
      if digit s last then
        .ok (skipDigits s signed)
      else
        .ok idx
    else
      .ok idx
  else
    .ok idx

def number (s : List Char) (start : Nat) : Scan := do
  let idx ← afterMinus s start
  let idx ← afterWhole s start idx
  let idx ← afterFraction s idx
  afterExponent s idx

--------------------
-- Strings
--------------------

/- Where the run of plain characters of a string ends. -/
inductive Run where
  | control (next : Nat)
  | sign (c : Char) (next : Nat)
  | ended

def plainRun : List Char → Nat → Run
| [], _ => .ended
| c :: rest, next =>
    if c = mark ∨ c = solidus then
      .sign c next
    else if c.toNat ≤ 31 then
      .control next
    else
      plainRun rest (next + 1)

/- Hex digits up to `last`, put together in 32 bits. -/
def hexRun
    (s : List Char)
    (last : Nat) : Nat → Nat → Nat → Scan
| 0, _, code => .ok code
| count + 1, next, code => do
    let c ← index s next
    match Utf16.hexDigit c with
    | none => do
        let pos ← sub last 5
        .error (stopAt invalidUnit pos)
    | some v =>
        hexRun s last count (next + 1)
          ((code <<< 4) % 2 ^ 32 ||| v)

/- What the loop goes on with, or where the string ends. -/
inductive Turn where
  | again (last : Nat)
  | done (idx : Nat)

/- A unit right behind a high half, read for its pair. -/
def lowHalf (s : List Char) (last : Nat) : Except Halt Turn := do
  let first ← index s last
  if first = solidus then do
    let second ← index s (last + 1)
    if second = 'u' then do
      let low ← hexRun s (last + 6) 4 (last + 2) 0
      if Utf16.IsLow low then
        .ok (.again (last + 6))
      else
        .ok (.again last)
    else
      .ok (.again last)
  else
    .ok (.again last)

/- After a reversed solidus and `u`. -/
def unitEscape (s : List Char) (next : Nat) : Except Halt Turn :=
  if next + 4 ≥ s.length then do
    let pos ← sub next 1
    .error (stopAt invalidUnit pos)
  else do
    let code ← hexRun s (next + 4) 4 next 0
    if Utf16.IsHigh code ∧ next + 4 + 6 < s.length then
      lowHalf s (next + 4)
    else
      .ok (.again (next + 4))

/- After a reversed solidus. -/
def escape
    (s : List Char)
    (start next : Nat) : Except Halt Turn :=
  if next = s.length then
    .error (stopAt unterminated start)
  else do
    let e ← index s next
    if e = 'u' then
      unitEscape s (next + 1)
    else if isShort e then
      .ok (.again (next + 1))
    else do
      let pos ← sub (next + 1) 2
      .error (stopAt invalidEscape pos)

/- One round of the loop of `scanstring`. -/
def stringTurn
    (s : List Char)
    (start last : Nat) : Except Halt Turn :=
  match plainRun (s.drop last) last with
  | .control next => .error (stopAt invalidControl next)
  | .ended => .error (stopAt unterminated start)
  | .sign c next =>
      if c = mark then
        .ok (.done (next + 1))
      else
        escape s start (next + 1)

def stringLoop
    (s : List Char)
    (start : Nat) : Nat → Nat → Scan
| 0, _ => .error .endless
| fuel + 1, last => do
    let turn ← stringTurn s start last
    match turn with
    | .done idx => .ok idx
    | .again last => stringLoop s start fuel last

/- `scanstring`, just past the opening mark. -/
def scanString (s : List Char) (last : Nat) : Scan := do
  let start ← sub last 1
  stringLoop s start (s.length + 1) last

/- Items up to the closing sign, each found by its scanner. -/
def itemLoop
    (scan : Nat → Scan)
    (close : Char)
    (s : List Char) : Nat → Nat → Scan
| 0, _ => .error .endless
| fuel + 1, idx => do
    let idx ← scan idx
    let idx := skipWs s idx
    if s[idx]? = some close then
      .ok idx
    else if s[idx]? ≠ some ',' then
      .error (stopAt expectingComma idx)
    else
      itemLoop scan close s fuel (skipWs s (idx + 1))

def container
    (scan : Nat → Scan)
    (close : Char)
    (s : List Char)
    (idx : Nat) : Scan := do
  let idx := skipWs s idx
  let idx ←
    if s[idx]? ≠ some close then
      itemLoop scan close s (s.length + 1) idx
    else
      .ok idx
  .ok (idx + 1)

/- A property: a name, a colon and a value. -/
def member
    (scan : Nat → Scan)
    (s : List Char)
    (idx : Nat) : Scan :=
  if s[idx]? ≠ some mark then
    .error (stopAt expectingName idx)
  else do
    let idx ← scanString s (idx + 1)
    let idx := skipWs s idx
    if s[idx]? ≠ some ':' then
      .error (stopAt expectingColon idx)
    else
      scan (skipWs s (idx + 1))

def object
    (scan : Nat → Scan)
    (s : List Char)
    (idx : Nat) : Scan :=
  container (member scan s) closeBrace s idx

def array
    (scan : Nat → Scan)
    (s : List Char)
    (idx : Nat) : Scan :=
  container scan ']' s idx

def isWordAt
    (s : List Char)
    (idx : Nat)
    (word : String) : Prop :=
  idx + word.toList.length ≤ s.length ∧
    (s.drop idx).take word.toList.length = word.toList

instance (s : List Char) (idx : Nat) (word : String) :
    Decidable (isWordAt s idx word) :=
  inferInstanceAs (Decidable (_ ∧ _))

/- What is neither a string nor a container. -/
def plainValue (s : List Char) (idx : Nat) (c : Char) : Scan :=
  if c = 'n' ∧ isWordAt s idx "null" then
    .ok (idx + 4)
  else if c = 't' ∧ isWordAt s idx "true" then
    .ok (idx + 4)
  else if c = 'f' ∧ isWordAt s idx "false" then
    .ok (idx + 5)
  else if c = 'N' ∧ isWordAt s idx "NaN" then
    .ok (idx + 3)
  else if c = 'I' ∧ isWordAt s idx "Infinity" then
    .ok (idx + 8)
  else if c = '-' ∧ isWordAt s idx "-Infinity" then
    .ok (idx + 9)
  else
    number s idx

/- `scan_once`, with the depth that is left. -/
def scanOnce (s : List Char) : Nat → Nat → Scan
| left, idx =>
    match s[idx]? with
    | none => .error (.stop (.value idx))
    | some c =>
        if c = mark then
          scanString s (idx + 1)
        else if c = openBrace ∨ c = '[' then
          match left with
          | 0 => .error (.stop .tooDeep)
          | left + 1 =>
              if c = openBrace then
                object (scanOnce s left) s (idx + 1)
              else
                array (scanOnce s left) s (idx + 1)
        else
          plainValue s idx c

theorem scanOnce_none
    {s : List Char}
    {idx : Nat}
    (left : Nat)
    (hAt : s[idx]? = none) :
    scanOnce s left idx = .error (.stop (.value idx)) := by
  cases left <;>
    simp only [scanOnce, hAt]

/- A panic or a loop without end is no result. -/
def pythonDecodeError
    (s : List Char) : Except Halt (Option DecodeError) :=
  match scanOnce s maxDepth (skipWs s 0) with
  | .ok last =>
      if skipWs s last ≠ s.length then
        .ok (some (.invalid "Extra data" (skipWs s last)))
      else
        .ok none
  | .error (.stop (.value idx)) =>
      .ok (some (.invalid "Expecting value" idx))
  | .error (.stop (.msg text pos)) =>
      .ok (some (.invalid text pos))
  | .error (.stop .tooDeep) => .ok (some .tooDeep)
  | .error halt => .error halt

end PyJson

end SentinelCommand
