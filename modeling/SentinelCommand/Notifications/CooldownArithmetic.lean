import SentinelCommand.Lib.Machine
import SentinelCommand.Notifications.MotionCooldown
import SentinelCommand.Text

/-
  The arithmetic of the motion email cooldown, from the text
  of the setting to the two window tests: the one of
  `claim_motion_cooldown_or_silence` saturates, the one of
  `run_motion_digest` does not and then adds the window to
  the anchor.

  Instants are microseconds since the epoch, as everywhere;
  the cooldown is a 64-bit number of minutes.

  Key definitions include:
    * `CooldownArithmetic.pythonInt`
    * `CooldownArithmetic.parseCooldownMinutes`

  Correctness is proven by:
    * `CooldownArithmetic.digestTest_of_fits`
    * `CooldownArithmetic.testsAgree_iff`
-/

--------------------
-- The Setting
--------------------

namespace SentinelCommand

namespace CooldownArithmetic

open Machine

/- An integer of any size; past `i64` only its sign is left. -/
inductive PyInt where
  | small (value : Int)
  | big (negative : Bool)
  deriving DecidableEq, Repr

/-
  The digits of a text without its underscores, which stand
  only between digits.
-/
def cleanDigits :
    List Char → Bool → List Char → Option (List Char)
| [], previousWasDigit, clean =>
    if previousWasDigit then some clean else none
| c :: rest, previousWasDigit, clean =>
    if c = '_' then
      if previousWasDigit then
        cleanDigits rest false clean
      else
        none
    else if c.isDigit then
      cleanDigits rest true (clean ++ [c])
    else
      none

/- The builtin `int()` of a text, as `python_int` has it. -/
def pythonInt (raw : List Char) : Option PyInt :=
  let (negative, text) :=
    match Text.trim raw with
    | '-' :: rest => (true, rest)
    | '+' :: rest => (false, rest)
    | text => (false, text)
  if text = [] then
    none
  else
    (cleanDigits text false []).map
      (fun clean =>
        match parseI64 clean with
        | some value =>
            .small (if negative then -value else value)
        | none => .big negative)

/- `max(1, int(raw))`, and fifteen where there is no integer. -/
def parseCooldownMinutes (raw : List Char) : Int :=
  match pythonInt raw with
  | some (.small minutes) => max minutes 1
  | some (.big true) => 1
  | some (.big false) => i64Max
  | none => 15

theorem one_le_parseCooldownMinutes (raw : List Char) :
    1 ≤ parseCooldownMinutes raw := by
  unfold parseCooldownMinutes
  split
  · exact le_max_right _ _
  · exact le_rfl
  · decide
  · decide

--------------------
-- The Window Tests
--------------------

open Machine MotionCooldown

/- An anchor as it was parsed, with its offset if it has one. -/
structure Anchor where
  naive : Int
  offset : Option Int
  deriving DecidableEq, Repr

/-
  Whether the claim finds the window open. An anchor with an
  offset is silenced without a test.
-/
def claimTest
    (raw : List Char)
    (anchor : Anchor)
    (now : Int) : Computed (Option Bool) :=
  if anchor.offset.isSome then
    .returns none true
  else
    .returns
      (some
        (numSeconds (now - anchor.naive) <
          saturatingMul (parseCooldownMinutes raw) 60))
      true

/- `TimeDelta::minutes`: no more milliseconds than `i64` has. -/
def timeDeltaMinutes (count : Int) : Computed Int :=
  if -9223372036854775 ≤ count * 60 ∧
      count * 60 ≤ 9223372036854775 then
    .returns (minutes count) true
  else
    .panics

/- A `NaiveDateTime` is in the years -262143 to 262142. -/
def addNaive (instant span : Int) : Computed Int :=
  if seconds (-8334601228800) ≤ instant + span ∧
      instant + span < seconds 8210266876800 then
    .returns (instant + span) true
  else
    .panics

/-
  The digest's test: nothing while the window is open, else
  the end of the window.
-/
def digestTest
    (build : Build)
    (raw : List Char)
    (anchor : Anchor)
    (now : Int) : Computed (Option Int) := do
  let limit ← mul build (parseCooldownMinutes raw) 60
  if numSeconds (now - anchor.naive) < limit then
    pure none
  else
    let span ← timeDeltaMinutes (parseCooldownMinutes raw)
    let windowEnd ← addNaive anchor.naive span
    pure (some windowEnd)

/- An instant in the years 1 to 9999. -/
def InYears (instant : Int) : Prop :=
  seconds (-62135596800) ≤ instant ∧
    instant < seconds 253402300800

/-
  Both tests come through without a panic and without a
  wrapped value; and where the claim tests the window at all,
  both find it open or both find it over.
-/
def TestsAgree
    (build : Build)
    (raw : List Char)
    (anchor : Anchor)
    (now : Int) : Prop :=
  ∃ claimed digested,
    claimTest raw anchor now = .returns claimed true ∧
      digestTest build raw anchor now =
        .returns digested true ∧
      ∀ isOpen ∈ claimed, isOpen = true ↔ digested = none

/-
  The text is not an integer of more minutes than 64 bits
  hold the seconds of.
-/
def Fits (raw : List Char) : Prop :=
  match pythonInt raw with
  | some (.small minutes) => minutes ≤ 153722867280912930
  | some (.big negative) => negative = true
  | none => True

instance (raw : List Char) : Decidable (Fits raw) := by
  unfold Fits
  split <;> infer_instance

/- The seconds of the cooldown are in range when it fits. -/
theorem fits_iff (raw : List Char) :
    Fits raw ↔ parseCooldownMinutes raw * 60 ≤ i64Max := by
  unfold Fits parseCooldownMinutes
  cases pythonInt raw with
  | none =>
      simp [i64Max]
  | some value =>
      cases value with
      | small minutes =>
          simp only [i64Max]
          omega
      | big negative =>
          cases negative <;> simp [i64Max]

/- What is left of a span when it is cut to seconds. -/
theorem numSeconds_bounds (span : Int) :
    span - 1000000 < numSeconds span * 1000000 ∧
      numSeconds span * 1000000 < span + 1000000 := by
  unfold numSeconds seconds
  rcases Int.le_total 0 span with hPos | hNeg
  · rw [Int.tdiv_eq_ediv_of_nonneg hPos]
    omega
  · have hFlip : span.tdiv (1 * 1000000) =
        -((-span) / 1000000) := by
      rw [← Int.neg_neg span, Int.neg_tdiv,
        Int.tdiv_eq_ediv_of_nonneg (by omega)]
      simp
    rw [hFlip]
    omega

theorem numSeconds_mul_le
    {span : Int}
    (hSpan : 0 ≤ span) :
    numSeconds span * 1000000 ≤ span := by
  unfold numSeconds seconds
  rw [Int.tdiv_eq_ediv_of_nonneg hSpan]
  omega

/- A span between two such instants is no long one. -/
theorem numSeconds_lt
    {anchor now : Int}
    (hAnchor : InYears anchor)
    (hNow : InYears now) :
    numSeconds (now - anchor) < 400000000000 := by
  have hBounds := numSeconds_bounds (now - anchor)
  unfold InYears seconds at hAnchor hNow
  omega

--------------------
-- Agreement
--------------------

/- The cooldown that the model of the windows is about. -/
def cooldown (raw : List Char) : Cooldown where
  length := parseCooldownMinutes raw
  pos := one_le_parseCooldownMinutes raw

theorem inI64_of_fits
    {raw : List Char}
    (hFits : Fits raw) :
    InI64 (parseCooldownMinutes raw * 60) := by
  have hPos := one_le_parseCooldownMinutes raw
  have hHigh := (fits_iff raw).mp hFits
  unfold InI64 i64Min
  omega

/- A window that is over ends by now. -/
theorem windowEnd_le_of_over
    {raw : List Char}
    {anchor now : Int}
    (hOver : windowOpen (cooldown raw) anchor now = false) :
    windowEnd (cooldown raw) anchor ≤ now := by
  have hPos := one_le_parseCooldownMinutes raw
  have hSpan :
      parseCooldownMinutes raw * 60 ≤
        numSeconds (now - anchor) :=
    Int.not_lt.mp (of_decide_eq_false hOver)
  have hBounds := numSeconds_bounds (now - anchor)
  have hForward : 0 ≤ now - anchor := by omega
  have hCut := numSeconds_mul_le hForward
  unfold windowEnd minutes seconds cooldown
  dsimp only
  omega

/-
  When the text fits, the digest's test is the one of the
  model without bounds, and comes through exactly.
-/
theorem digestTest_of_fits
    (build : Build)
    {raw : List Char}
    {anchor : Anchor}
    {now : Int}
    (hAnchor : InYears anchor.naive)
    (hNow : InYears now)
    (hFits : Fits raw) :
    digestTest build raw anchor now =
      .returns
        (if windowOpen (cooldown raw) anchor.naive now then
          none
        else
          some (windowEnd (cooldown raw) anchor.naive))
        true := by
  unfold digestTest mul
  rw [settle_of_inI64 build (inI64_of_fits hFits),
    Computed.returns_bind]
  cases hOpen :
    windowOpen (cooldown raw) anchor.naive now with
  | true =>
      have hBelow := of_decide_eq_true hOpen
      change
        numSeconds (now - anchor.naive) <
          parseCooldownMinutes raw * 60 at hBelow
      rw [if_pos hBelow]
      rfl
  | false =>
      have hOver := of_decide_eq_false hOpen
      change
        ¬numSeconds (now - anchor.naive) <
          parseCooldownMinutes raw * 60 at hOver
      have hPos := one_le_parseCooldownMinutes raw
      have hShort := numSeconds_lt hAnchor hNow
      have hEnd := windowEnd_le_of_over hOpen
      have hSpan :
          timeDeltaMinutes (parseCooldownMinutes raw) =
            .returns (minutes (parseCooldownMinutes raw))
              true := by
        unfold timeDeltaMinutes
        rw [if_pos (by omega)]
      have hSum :
          addNaive anchor.naive
              (minutes (parseCooldownMinutes raw)) =
            .returns
              (windowEnd (cooldown raw) anchor.naive)
              true := by
        unfold windowEnd cooldown at hEnd ⊢
        dsimp only at hEnd ⊢
        unfold addNaive
        rw [if_pos]
        unfold InYears minutes seconds at *
        omega
      rw [if_neg hOver, hSpan, Computed.returns_bind, hSum,
        Computed.returns_bind]
      rfl

/- In these years the saturated bound is never reached. -/
theorem claimTest_eq_windowOpen
    (raw : List Char)
    {naive now : Int}
    (hAnchor : InYears naive)
    (hNow : InYears now) :
    claimTest raw { naive, offset := none } now =
      .returns (some (windowOpen (cooldown raw) naive now))
        true := by
  have hPos := one_le_parseCooldownMinutes raw
  have hShort := numSeconds_lt hAnchor hNow
  have hSame :
      numSeconds (now - naive) <
          saturatingMul (parseCooldownMinutes raw) 60 ↔
        numSeconds (now - naive) <
          parseCooldownMinutes raw * 60 := by
    by_cases hHigh : parseCooldownMinutes raw * 60 ≤ i64Max
    · rw [saturatingMul_of_le (by unfold i64Min; omega) hHigh]
    · rw [saturatingMul_of_gt (Int.not_le.mp hHigh)]
      unfold i64Max at hHigh ⊢
      omega
  unfold claimTest windowOpen cooldown
  simp only [Option.isSome_none, Bool.false_eq_true, if_false,
    hSame]

/-
  In a debug build and in a release build the two tests come
  through and agree exactly when the text fits.
-/
theorem testsAgree_iff
    (build : Build)
    (raw : List Char)
    (anchor : Anchor)
    (now : Int)
    (hAnchor : InYears anchor.naive)
    (hNow : InYears now) :
    TestsAgree build raw anchor now ↔ Fits raw := by
  constructor
  · rintro ⟨_, digested, _, hDigest, _⟩
    obtain ⟨limit, hLimit, _⟩ :=
      (Computed.bind_eq_exact_iff _ _ digested).mp hDigest
    have hRange := ((settle_eq_exact_iff _ _ _).mp hLimit).1
    exact (fits_iff raw).mpr hRange.2
  · intro hFits
    have hDigest :=
      digestTest_of_fits build hAnchor hNow hFits
    obtain ⟨naive, offset⟩ := anchor
    cases offset with
    | some offset =>
        exact ⟨none, _, rfl, hDigest, fun _ hNone => nomatch hNone⟩
    | none =>
        refine
          ⟨_, _, claimTest_eq_windowOpen raw hAnchor hNow,
            hDigest, ?_⟩
        intro isOpen hClaim
        cases hClaim
        cases windowOpen (cooldown raw) naive now <;> simp

/- A window of an underscored ten minutes, after five. -/
theorem testsAgree_ten :
    TestsAgree .release "1_0".toList
      { naive := seconds 1767225600, offset := none }
      (seconds 1767225900) := by
  apply
    (testsAgree_iff .release "1_0".toList
      { naive := seconds 1767225600, offset := none }
      (seconds 1767225900) ⟨by decide, by decide⟩
      ⟨by decide, by decide⟩).mpr
  decide

theorem not_testsAgree_of_panics
    {build : Build}
    {raw : List Char}
    {anchor : Anchor}
    {now : Int}
    (hPanics : digestTest build raw anchor now = .panics) :
    ¬TestsAgree build raw anchor now := by
  rintro ⟨_, _, _, hDigest, _⟩
  rw [hPanics] at hDigest
  cases hDigest

/-
  The largest 64-bit number of minutes, after five: the claim
  finds the window open, the digest stops in both builds.
-/
theorem not_testsAgree_largest :
    let raw := "9223372036854775807".toList
    let anchor : Anchor :=
      { naive := seconds 1767225600, offset := none }
    let now := seconds 1767225900
    claimTest raw anchor now = .returns (some true) true ∧
      ¬TestsAgree .debug raw anchor now ∧
      ¬TestsAgree .release raw anchor now := by
  intro raw anchor now
  exact
    ⟨by decide, not_testsAgree_of_panics (by decide),
      not_testsAgree_of_panics (by decide)⟩

end CooldownArithmetic

end SentinelCommand
