import Mathlib.Algebra.Order.Ring.Rat
import Mathlib.Tactic.Linarith
import SentinelCommand.Lib.Window

/-
  The per-key rate limiter of `mcp/scope.rs`: two sliding
  windows for each key, trimmed when the key calls, and an
  hourly sweep over all keys.

  It is compared with the rule that counts the calls of the
  key that were allowed, in the last sixty seconds and in the
  last day. Times are rational numbers of seconds.

  Key definitions include:
    * `Mcp.RateLimiter.checkAt`, `Mcp.RateLimiter.prune`
    * `Mcp.RateLimiter.countWithin`

  Correctness is proven by:
    * `Mcp.RateLimiter.step_checkAt`
    * `Mcp.RateLimiter.checkAt_exact`
-/

--------------------
-- The Limiter
--------------------

namespace SentinelCommand

namespace Mcp

namespace RateLimiter

open Window

/- Which window refused the call. -/
inductive Breach where
  | none
  | minute
  | daily
  deriving DecidableEq, Repr

structure Windows where
  minute : AList (fun _ : String => List ℚ)
  daily : AList (fun _ : String => List ℚ)
  lastPrune : ℚ

/- `RateLimiter::starting_at`. -/
def startingAt (now : ℚ) : Windows where
  minute := ∅
  daily := ∅
  lastPrune := now

def pruneInterval : ℚ := 3600

/- One call of `check_at`. -/
structure Call where
  keyHash : String
  minuteLimit : Nat
  dailyLimit : Nat
  now : ℚ
  deriving DecidableEq, Repr

/- The stamps from the first that is not before `cutoff`. -/
def popBefore (cutoff : ℚ) (stamps : List ℚ) : List ℚ :=
  stamps.dropWhile (· < cutoff)

/- A key whose daily window is empty loses both entries. -/
def prune (windows : Windows) (now : ℚ) : Windows :=
  let daily :=
    mapValues (popBefore (now - 86400)) windows.daily
  { windows with
    daily := retain (fun _ stamps => !stamps.isEmpty) daily
    minute :=
      retain (fun keyHash _ => daily.lookup keyHash ≠ some [])
        windows.minute }

/- What `check_at` does after the sweep. -/
def checkWindows
    (windows : Windows)
    (call : Call) : Windows × (Bool × Nat × Breach) :=
  let minute :=
    popBefore (call.now - 60)
      (held windows.minute call.keyHash)
  let daily :=
    popBefore (call.now - 86400)
      (held windows.daily call.keyHash)
  let trimmed :=
    { windows with
      minute := windows.minute.insert call.keyHash minute
      daily := windows.daily.insert call.keyHash daily }
  if call.minuteLimit ≤ minute.length then
    (trimmed, (false, 0, .minute))
  else if call.dailyLimit ≤ daily.length then
    (trimmed, (false, 0, .daily))
  else
    ({ windows with
        minute :=
          windows.minute.insert call.keyHash
            (minute ++ [call.now])
        daily :=
          windows.daily.insert call.keyHash
            (daily ++ [call.now]) },
      (true, call.minuteLimit - (minute.length + 1), .none))

def checkAt
    (windows : Windows)
    (call : Call) : Windows × (Bool × Nat × Breach) :=
  if call.now - windows.lastPrune ≥ pruneInterval then
    checkWindows
      { prune windows call.now with lastPrune := call.now } call
  else
    checkWindows windows call

end RateLimiter

end Mcp

--------------------
-- The Rule
--------------------

namespace Mcp

namespace RateLimiter

open CallLog Window

abbrev Entry : Type :=
  Call × (Bool × Nat × Breach)

/- How many of the stamps lie in the last `span` seconds. -/
def within (span now : ℚ) (stamps : List ℚ) : Nat :=
  stamps.countP (fun at_ => now - span ≤ at_ ∧ at_ ≤ now)

/- The answer to a call with so many in its two windows. -/
def verdict
    (call : Call)
    (minute daily : Nat) : Bool × Nat × Breach :=
  if call.minuteLimit ≤ minute then
    (false, 0, .minute)
  else if call.dailyLimit ≤ daily then
    (false, 0, .daily)
  else
    (true, call.minuteLimit - minute - 1, .none)

/- A call is answered from the earlier calls of its key. -/
def rule : Rule Call (Bool × Nat × Breach) String where
  key := Call.keyHash
  answer call earlier :=
    let stamps := allowedTimes Call.now Prod.fst earlier
    verdict call (within 60 call.now stamps)
      (within 86400 call.now stamps)

@[simp]
theorem rule_key (call : Call) :
    rule.key call = call.keyHash := by
  rfl

/-
  The calls of the key of `call` that were allowed before it,
  in its last `span` seconds.
-/
def countWithin
    (span : ℚ)
    (log : List Entry)
    (call : Call) : Nat :=
  log.countP
    (fun entry =>
      entry.2.1 ∧ entry.1.keyHash = call.keyHash ∧
        call.now - span ≤ entry.1.now ∧ entry.1.now ≤ call.now)

theorem verdict_allowed_iff
    (call : Call)
    (minute daily : Nat) :
    (verdict call minute daily).1 = true ↔
      minute < call.minuteLimit ∧ daily < call.dailyLimit := by
  unfold verdict
  split
  · simp only [Bool.false_eq_true, false_iff]
    omega
  · split
    · simp only [Bool.false_eq_true, false_iff]
      omega
    · simp only [true_iff]
      omega

theorem verdict_of_allowed
    {call : Call}
    {minute daily : Nat}
    (hAllowed : (verdict call minute daily).1 = true) :
    (verdict call minute daily).2 =
      (call.minuteLimit - minute - 1, .none) := by
  have hRoom := (verdict_allowed_iff call minute daily).mp hAllowed
  unfold verdict
  rw [if_neg (Nat.not_le.mpr hRoom.1),
    if_neg (Nat.not_le.mpr hRoom.2)]

/- A refusal names the minute first. -/
theorem verdict_of_refused
    {call : Call}
    {minute daily : Nat}
    (hRefused : (verdict call minute daily).1 = false) :
    (verdict call minute daily).2 =
      (0,
        if call.minuteLimit ≤ minute then .minute
        else .daily) := by
  unfold verdict at hRefused ⊢
  split
  · rfl
  · rename_i hMinute
    split
    · rfl
    · rename_i hDaily
      rw [if_neg hMinute, if_neg hDaily] at hRefused
      cases hRefused

theorem within_eq_countWithin
    (span : ℚ)
    (log : List Entry)
    (call : Call) :
    within span call.now
        (history rule Call.now Prod.fst log call.keyHash) =
      countWithin span log call := by
  unfold within history allowedTimes countWithin Rule.entries
  rw [List.countP_map, List.countP_filter, List.countP_filter]
  apply List.countP_congr
  intro entry _
  simp [and_comm, and_left_comm]

end RateLimiter

end Mcp

--------------------
-- Windows
--------------------

namespace Mcp

namespace RateLimiter

open Window

/- The window of the last `span` seconds, both ends in it. -/
def lastSeconds (span : ℚ) (hSpan : 0 ≤ span) : Cutoff ℚ where
  old now stamp := stamp < now - span
  old_of_later := by
    intro now later stamp hLater hOld
    rw [decide_eq_true_eq] at hOld ⊢
    linarith
  old_of_earlier := by
    intro now earlier stamp hEarlier hOld
    rw [decide_eq_true_eq] at hOld ⊢
    linarith
  old_self := by
    intro now
    rw [decide_eq_false_iff_not]
    linarith

def lastMinute : Cutoff ℚ :=
  lastSeconds 60 (by norm_num)

def lastDay : Cutoff ℚ :=
  lastSeconds 86400 (by norm_num)

/- The deques are trimmed to these windows. -/
theorem popBefore_minute (now : ℚ) (stamps : List ℚ) :
    popBefore (now - 60) stamps = lastMinute.trim now stamps := by
  rfl

theorem popBefore_day (now : ℚ) (stamps : List ℚ) :
    popBefore (now - 86400) stamps = lastDay.trim now stamps := by
  rfl

theorem length_fresh_lastSeconds
    {span now : ℚ}
    (hSpan : 0 ≤ span)
    {stamps : List ℚ}
    (hPast : ∀ stamp ∈ stamps, stamp ≤ now) :
    ((lastSeconds span hSpan).fresh now stamps).length =
      within span now stamps := by
  unfold Cutoff.fresh within
  rw [← List.countP_eq_length_filter]
  apply List.countP_congr
  intro stamp hStamp
  simp [lastSeconds, hPast stamp hStamp]

/- Nothing of the last minute is left when the day is empty. -/
theorem fresh_lastMinute_of_lastDay
    {now : ℚ}
    {stamps : List ℚ}
    (hDay : lastDay.fresh now stamps = []) :
    lastMinute.fresh now stamps = [] := by
  unfold Cutoff.fresh at hDay ⊢
  rw [List.filter_eq_nil_iff] at hDay ⊢
  intro stamp hStamp hFresh
  apply hDay stamp hStamp
  simp only [lastMinute, lastDay, lastSeconds,
    Bool.not_eq_true', decide_eq_false_iff_not, not_lt]
    at hFresh ⊢
  linarith

end RateLimiter

end Mcp

--------------------
-- What One Call Keeps
--------------------

namespace Mcp

namespace RateLimiter

open CallLog Window

/- At `now` both tables stand for the calls in the log. -/
structure KeptAt
    (now : ℚ)
    (windows : Windows)
    (log : List Entry) : Prop where
  minute :
    TableStands lastMinute now windows.minute
      (history rule Call.now Prod.fst log)
  daily :
    TableStands lastDay now windows.daily
      (history rule Call.now Prod.fst log)

/- They do from the last call on. -/
def Kept (windows : Windows) (log : List Entry) : Prop :=
  ∀ now, (∀ entry ∈ log, entry.1.now ≤ now) →
    KeptAt now windows log

theorem KeptAt.later
    {now later : ℚ}
    {windows : Windows}
    {log : List Entry}
    (hKept : KeptAt now windows log)
    (hLater : now ≤ later) :
    KeptAt later windows log :=
  ⟨hKept.minute.later hLater, hKept.daily.later hLater⟩

theorem kept_startingAt (lastPrune : ℚ) :
    Kept (startingAt lastPrune) [] := by
  intro now _
  exact
    ⟨TableStands.empty now (fun _ => rfl),
      TableStands.empty now (fun _ => rfl)⟩

/-
  The sweep drops a key only when its day is empty, and then
  its minute is too.
-/
theorem keptAt_prune
    {now : ℚ}
    {windows : Windows}
    {log : List Entry}
    (hKept : KeptAt now windows log) :
    KeptAt now (prune windows now) log := by
  have hTrimmed := hKept.daily.trimAll
  constructor
  · apply hKept.minute.retain
    intro key hDead
    have hEmpty :
        (mapValues (popBefore (now - 86400))
          windows.daily).lookup key = some [] := by
      simpa using hDead
    have hDay :
        held
          (mapValues (popBefore (now - 86400)) windows.daily)
          key = [] := by
      simp [held, hEmpty]
    have hNone :
        lastDay.fresh now
          (history rule Call.now Prod.fst log key) = [] := by
      rw [← (hTrimmed key).fresh_eq]
      change
        lastDay.fresh now
          (held
            (mapValues (popBefore (now - 86400)) windows.daily)
            key) = []
      rw [hDay]
      rfl
    rw [(hKept.minute key).fresh_eq]
    exact fresh_lastMinute_of_lastDay hNone
  · apply hTrimmed.retain
    intro key hDead
    have hEmpty := List.isEmpty_iff.mp (by simpa using hDead)
    rw [hEmpty]
    rfl

/- The lengths that are compared are the counts of the rule. -/
theorem length_trim_eq
    {span now : ℚ}
    (hSpan : 0 ≤ span)
    {kept : List ℚ}
    {log : List Entry}
    {key : String}
    (hStands :
      Stands (lastSeconds span hSpan) now kept
        (history rule Call.now Prod.fst log key))
    (hPast : ∀ entry ∈ log, entry.1.now ≤ now) :
    ((lastSeconds span hSpan).trim now kept).length =
      within span now
        (history rule Call.now Prod.fst log key) := by
  rw [hStands.trim_eq]
  exact
    length_fresh_lastSeconds hSpan
      (history_past rule Call.now Prod.fst hPast key)

theorem trim_past
    {cutoff : Cutoff ℚ}
    {now : ℚ}
    {kept : List ℚ}
    {log : List Entry}
    {key : String}
    (hStands :
      Stands cutoff now kept
        (history rule Call.now Prod.fst log key))
    (hPast : ∀ entry ∈ log, entry.1.now ≤ now) :
    ∀ stamp ∈ cutoff.trim now kept, stamp ≤ now := by
  intro stamp hStamp
  rw [hStands.trim_eq] at hStamp
  exact
    history_past rule Call.now Prod.fst hPast key stamp
      (List.mem_of_mem_filter hStamp)

theorem expected_eq (log : List Entry) (call : Call) :
    rule.expected log call =
      verdict call
        (within 60 call.now
          (history rule Call.now Prod.fst log call.keyHash))
        (within 86400 call.now
          (history rule Call.now Prod.fst log
            call.keyHash)) := by
  rfl

/- After the sweep, a call is answered and stamped. -/
theorem checkWindows_spec
    {windows : Windows}
    {log : List Entry}
    {call : Call}
    (hKept : KeptAt call.now windows log)
    (hPast : ∀ entry ∈ log, entry.1.now ≤ call.now) :
    (checkWindows windows call).2 = rule.expected log call ∧
      KeptAt call.now (checkWindows windows call).1
        (log ++ [(call, (checkWindows windows call).2)]) := by
  have hMinute := hKept.minute call.keyHash
  have hDaily := hKept.daily call.keyHash
  have hMinuteLength :
      (lastMinute.trim call.now
        (held windows.minute call.keyHash)).length = _ :=
    length_trim_eq _ hMinute hPast
  have hDailyLength :
      (lastDay.trim call.now
        (held windows.daily call.keyHash)).length = _ :=
    length_trim_eq _ hDaily hPast
  rw [expected_eq, ← hMinuteLength, ← hDailyLength]
  unfold checkWindows verdict
  dsimp only
  rw [popBefore_minute, popBefore_day]
  split
  · exact
      ⟨rfl, hKept.minute.refuse hMinute.trim rfl,
        hKept.daily.refuse hDaily.trim rfl⟩
  · split
    · exact
        ⟨rfl, hKept.minute.refuse hMinute.trim rfl,
          hKept.daily.refuse hDaily.trim rfl⟩
    · refine
        ⟨?_,
          hKept.minute.allow hMinute.trim
            (trim_past hMinute hPast) rfl,
          hKept.daily.allow hDaily.trim
            (trim_past hDaily hPast) rfl⟩
      rw [Nat.sub_add_eq]

theorem step_checkWindows :
    Step rule checkWindows (InOrder Call.now) Kept := by
  apply step_of_moments
  · intro now later windows log hLater hKept
    exact hKept.later hLater
  · intro windows log call hPast hKept
    exact checkWindows_spec hKept hPast

/- The sweep changes neither the answer nor what is kept. -/
theorem step_checkAt :
    Step rule checkAt (InOrder Call.now) Kept := by
  apply step_of_moments
  · intro now later windows log hLater hKept
    exact hKept.later hLater
  · intro windows log call hPast hKept
    unfold checkAt
    split
    · have hPruned := keptAt_prune hKept
      have hStamped :
          KeptAt call.now
            { prune windows call.now with
              lastPrune := call.now }
            log :=
        ⟨hPruned.minute, hPruned.daily⟩
      exact checkWindows_spec hStamped hPast
    · exact checkWindows_spec hKept hPast

end RateLimiter

end Mcp

--------------------
-- Every Run
--------------------

namespace Mcp

namespace RateLimiter

open CallLog Window

/-
  In any run of calls in order, the call is let through
  exactly when fewer of its key were let through in the last
  minute and the last day than its limits; what remains is
  told; and the answer is the one with the other keys left
  out, with any other clock of the sweep, and with no sweep.
-/
theorem checkAt_exact
    (lastPrune : ℚ)
    (calls : List Call)
    (call : Call)
    (hSorted :
      ((calls ++ [call]).map Call.now).Pairwise (· ≤ ·)) :
    let before := record checkAt (startingAt lastPrune) calls
    let answer := (checkAt before.1 call).2
    let minute := countWithin 60 before.2 call
    let daily := countWithin 86400 before.2 call
    (answer.1 = true ↔
        minute < call.minuteLimit ∧ daily < call.dailyLimit) ∧
      (answer.1 = true →
        answer.2 =
          (call.minuteLimit - minute - 1, Breach.none)) ∧
      (answer.1 = false →
        answer.2 =
          (0,
            if call.minuteLimit ≤ minute then
              Breach.minute
            else
              Breach.daily)) ∧
      (∀ otherPrune,
        answer =
          (checkAt
            (record checkAt (startingAt otherPrune)
              (calls.filter
                (fun other =>
                  other.keyHash = call.keyHash))).1
            call).2) ∧
      answer =
        (checkWindows
          (record checkWindows (startingAt lastPrune) calls).1
          call).2 := by
  intro before answer minute daily
  have hOk := meets_of_pairwise hSorted
  have hAnswer : answer = rule.expected before.2 call :=
    answer_of_step step_checkAt (kept_startingAt lastPrune) hOk
  rw [expected_eq, within_eq_countWithin,
    within_eq_countWithin] at hAnswer
  have hOwn :
      Meets (InOrder Call.now)
        ((calls ++ [call]).filter
          (fun other => other.keyHash = call.keyHash)) :=
    meets_of_pairwise (pairwise_filter _ hSorted)
  refine ⟨?_, ?_, ?_, ?_, ?_⟩
  · rw [hAnswer]
    exact verdict_allowed_iff call minute daily
  · intro hAllowed
    rw [hAnswer] at hAllowed ⊢
    exact verdict_of_allowed hAllowed
  · intro hRefused
    rw [hAnswer] at hRefused ⊢
    exact verdict_of_refused hRefused
  · intro otherPrune
    exact
      answer_alone step_checkAt (kept_startingAt lastPrune)
        (kept_startingAt otherPrune) hOk hOwn
  · exact
      answer_eq_of_steps step_checkAt step_checkWindows
        (kept_startingAt lastPrune) (kept_startingAt lastPrune)
        hOk

/- A stamp of sixty seconds ago still counts. -/
theorem checkAt_exact_edge :
    let at_ (keyHash : String) (now : ℚ) : Call :=
      { keyHash, minuteLimit := 2, dailyLimit := 9, now }
    let before :=
      record checkAt (startingAt 0)
        [at_ "a" 0, at_ "b" 5, at_ "a" 30]
    (checkAt before.1 (at_ "a" 60)).2 =
        (false, 0, .minute) ∧
      (checkAt before.1 (at_ "a" 61)).2 =
        (true, 0, .none) := by
  intro at_ before
  have hEdge :=
    checkAt_exact 0 [at_ "a" 0, at_ "b" 5, at_ "a" 30]
      (at_ "a" 60) (by decide)
  have hLater :=
    checkAt_exact 0 [at_ "a" 0, at_ "b" 5, at_ "a" 30]
      (at_ "a" 61) (by decide)
  have hFull :
      countWithin 60 before.2 (at_ "a" 60) = 2 := by
    decide +kernel
  have hRoom :
      countWithin 60 before.2 (at_ "a" 61) = 1 ∧
        countWithin 86400 before.2 (at_ "a" 61) = 2 := by
    decide +kernel
  have hRefused :
      (checkAt before.1 (at_ "a" 60)).2.1 = false := by
    rw [Bool.eq_false_iff]
    intro hAllowed
    have hBelow := (hEdge.1.mp hAllowed).1
    change countWithin 60 before.2 (at_ "a" 60) < 2 at hBelow
    omega
  have hAllowed :
      (checkAt before.1 (at_ "a" 61)).2.1 = true := by
    apply hLater.1.mpr
    change
      countWithin 60 before.2 (at_ "a" 61) < 2 ∧
        countWithin 86400 before.2 (at_ "a" 61) < 9
    omega
  constructor
  · refine Prod.ext hRefused ((hEdge.2.2.1 hRefused).trans ?_)
    change
      (0, if 2 ≤ countWithin 60 before.2 (at_ "a" 60) then
        Breach.minute else Breach.daily) = _
    rw [hFull]
    rfl
  · refine Prod.ext hAllowed ((hLater.2.1 hAllowed).trans ?_)
    change
      (2 - countWithin 60 before.2 (at_ "a" 61) - 1,
        Breach.none) = _
    rw [hRoom.1]

end RateLimiter

end Mcp

end SentinelCommand
