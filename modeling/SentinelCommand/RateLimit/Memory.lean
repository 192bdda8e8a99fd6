import Mathlib.Algebra.Group.Nat.Defs
import SentinelCommand.Lib.Window

/-
  The in-process counters of `ratelimit.rs`: one fixed window
  for each bucket, and a sweep of old buckets once there are
  more than ten thousand.

  Instants are nanoseconds of a clock that does not go back.
  A bucket's window may be of any length up to an hour; the
  count is a 32-bit number that wraps.

  Key definitions include:
    * `RateLimit.check`, `RateLimit.sweep`
    * `RateLimit.fixedWindow`, `RateLimit.position`

  Correctness is proven by:
    * `RateLimit.fixedWindow_split`
    * `RateLimit.check_exact`
-/

--------------------
-- Counters
--------------------

namespace SentinelCommand

namespace RateLimit

open Window

def second : Nat := 1000000000

def memorySweepEvery : Nat := 10 * second

def hour : Nat := 3600 * second

/- The count of a bucket and when its window started. -/
structure MemoryCounters where
  buckets : AList (fun _ : String => Nat × Nat)
  lastSweep : Option Nat

def MemoryCounters.default : MemoryCounters where
  buckets := ∅
  lastSweep := none

/- One call of `check`. -/
structure Call where
  bucket : String
  limit : Nat
  window : Nat
  now : Nat
  deriving DecidableEq, Repr

/- `duration_since` is zero for a later instant. -/
def durationSince (now earlier : Nat) : Nat :=
  now - earlier

/- Drops the buckets that started an hour ago, at times. -/
def sweep
    (counters : MemoryCounters)
    (now : Nat) : MemoryCounters :=
  let due :=
    counters.lastSweep.all
      (fun last => durationSince now last ≥ memorySweepEvery)
  if counters.buckets.entries.length > 10000 ∧ due then
    { lastSweep := some now
      buckets :=
        retain
          (fun _ entry => durationSince now entry.2 < hour)
          counters.buckets }
  else
    counters

/- The bucket's entry with this call counted. -/
def counted (counters : MemoryCounters) (call : Call) : Nat × Nat :=
  let entry :=
    (counters.buckets.lookup call.bucket).getD (0, call.now)
  let entry :=
    if durationSince call.now entry.2 ≥ call.window then
      (0, call.now)
    else
      entry
  ((entry.1 + 1) % 2 ^ 32, entry.2)

/- `check` up to the sweep. -/
def checkUnswept
    (counters : MemoryCounters)
    (call : Call) : MemoryCounters × Bool :=
  let entry := counted counters call
  ({ counters with
      buckets := counters.buckets.insert call.bucket entry },
    entry.1 ≤ call.limit)

def check
    (counters : MemoryCounters)
    (call : Call) : MemoryCounters × Bool :=
  let checked := checkUnswept counters call
  (sweep checked.1 call.now, checked.2)

--------------------
-- Fixed Windows
--------------------

/-
  A call opens a window when there is none or the last one
  has elapsed; else it is one more of that window.
-/
def advance
    (window : Nat) :
    Option (Nat × Nat) → Nat → Option (Nat × Nat)
| none, now => some (now, 1)
| some (start, count), now =>
    if window ≤ durationSince now start then
      some (now, 1)
    else
      some (start, count + 1)

/-
  The start of the window that the last of the calls is in,
  and how many of them are in it.
-/
def fixedWindow
    (window : Nat)
    (times : List Nat) : Option (Nat × Nat) :=
  times.foldl (advance window) none

/- Which call of its window the last one is. -/
def position (window : Nat) (times : List Nat) : Nat :=
  ((fixedWindow window times).map Prod.snd).getD 0

theorem advance_some
    (window start count now : Nat) :
    advance window (some (start, count)) now =
      if window ≤ durationSince now start then
        some (now, 1)
      else
        some (start, count + 1) := by
  rfl

theorem fixedWindow_append_singleton
    (window : Nat)
    (times : List Nat)
    (now : Nat) :
    fixedWindow window (times ++ [now]) =
      advance window (fixedWindow window times) now := by
  simp [fixedWindow]

/-
  The calls of the current window are the last ones, all of
  them before it elapses; and where there are calls before
  it, the window of the last of those had elapsed.
-/
theorem fixedWindow_split
    {window start count : Nat}
    {times : List Nat}
    (hWindow :
      fixedWindow window times = some (start, count)) :
    ∃ before inside,
      times = before ++ start :: inside ∧
        count = inside.length + 1 ∧
        (∀ now ∈ inside, durationSince now start < window) ∧
        ∀ earlier number,
          fixedWindow window before = some (earlier, number) →
            window ≤ durationSince start earlier := by
  induction times using List.reverseRecOn
    generalizing start count with
  | nil =>
      cases hWindow
  | append_singleton times now ih =>
      rw [fixedWindow_append_singleton] at hWindow
      cases hBefore : fixedWindow window times with
      | none =>
          rw [hBefore] at hWindow
          cases hWindow
          exact
            ⟨times, [], rfl, rfl, List.forall_mem_nil _,
              fun _ _ hSome =>
                (nomatch hBefore.symm.trans hSome)⟩
      | some opened =>
          obtain ⟨earlier, number⟩ := opened
          rw [hBefore, advance_some] at hWindow
          by_cases hElapsed :
            window ≤ durationSince now earlier
          · rw [if_pos hElapsed] at hWindow
            cases hWindow
            refine
              ⟨times, [], rfl, rfl, List.forall_mem_nil _, ?_⟩
            intro other count hSome
            rw [hBefore] at hSome
            cases hSome
            exact hElapsed
          · rw [if_neg hElapsed] at hWindow
            cases hWindow
            obtain ⟨before, inside, hTimes, hCount, hInside,
              hOpened⟩ := ih hBefore
            refine
              ⟨before, inside ++ [now], ?_, ?_, ?_, hOpened⟩
            · rw [hTimes]
              simp
            · rw [hCount]
              simp
            · intro other hOther
              rcases List.mem_append.mp hOther with hOld | hNew
              · exact hInside other hOld
              · rw [List.mem_singleton.mp hNew]
                exact Nat.not_le.mp hElapsed

open CallLog Window

/- When the calls of a log came, refused ones too. -/
def timesOf (log : List (Call × Bool)) : List Nat :=
  log.map (·.1.now)

/-
  A call is allowed when it is among the first `limit` calls
  of its bucket's window.
-/
def rule : Rule Call Bool String where
  key := Call.bucket
  answer call earlier :=
    position call.window (timesOf earlier ++ [call.now]) ≤
      call.limit

@[simp]
theorem rule_key (call : Call) :
    rule.key call = call.bucket := by
  rfl

/- The calls of the bucket of `call` so far, and `call`. -/
def bucketTimes
    (earlier : List Call)
    (call : Call) : List Nat :=
  (earlier.filter (·.bucket = call.bucket)).map Call.now ++
    [call.now]

/-
  Calls in order, each with the window of its bucket, and so
  few in a window that the count does not wrap.
-/
structure Admissible
    (windowOf : String → Nat)
    (earlier : List Call)
    (call : Call) : Prop where
  inOrder : InOrder Call.now earlier call
  window_eq : call.window = windowOf call.bucket
  few :
    position call.window (bucketTimes earlier call) < 2 ^ 32

theorem timesOf_entries
    (log : List (Call × Bool))
    (bucket : String) :
    timesOf (rule.entries bucket log) =
      ((log.map Prod.fst).filter
        (·.bucket = bucket)).map Call.now := by
  unfold timesOf Rule.entries
  rw [List.filter_map, List.map_map]
  rfl

--------------------
-- What One Call Keeps
--------------------

variable (windowOf : String → Nat)

/- The window of a bucket, by the calls in the log. -/
def windowIn
    (log : List (Call × Bool))
    (bucket : String) : Option (Nat × Nat) :=
  fixedWindow (windowOf bucket)
    (timesOf (rule.entries bucket log))

/-
  A bucket that is held has the start and the count of its
  window; one that is not has none, or its window started an
  hour ago.
-/
def EntryStands
    (log : List (Call × Bool))
    (bucket : String) :
    Option (Nat × Nat) → Prop
| some (count, started) =>
    windowIn windowOf log bucket = some (started, count)
| none =>
    ∀ start count,
      windowIn windowOf log bucket = some (start, count) →
        ∀ now, (∀ entry ∈ log, entry.1.now ≤ now) →
          hour ≤ durationSince now start

def Stands
    (counters : MemoryCounters)
    (log : List (Call × Bool)) : Prop :=
  ∀ bucket,
    EntryStands windowOf log bucket
      (counters.buckets.lookup bucket)

theorem stands_default : Stands windowOf .default [] := by
  intro bucket start count hWindow
  cases hWindow

/- A call of another bucket leaves the window of this one. -/
theorem windowIn_other
    (log : List (Call × Bool))
    {entry : Call × Bool}
    {bucket : String}
    (hOther : entry.1.bucket ≠ bucket) :
    windowIn windowOf (log ++ [entry]) bucket =
      windowIn windowOf log bucket := by
  unfold windowIn
  rw [entries_append_singleton]
  simp [hOther]

theorem windowIn_own
    (log : List (Call × Bool))
    (call : Call)
    (answer : Bool) :
    windowIn windowOf (log ++ [(call, answer)]) call.bucket =
      advance (windowOf call.bucket)
        (windowIn windowOf log call.bucket) call.now := by
  unfold windowIn
  rw [entries_append_singleton, ← fixedWindow_append_singleton]
  simp [timesOf]

/- The position of a call, by the window in the log. -/
theorem advance_windowIn
    (log : List (Call × Bool))
    {call : Call}
    (hWindow : call.window = windowOf call.bucket) :
    ∃ start,
      advance call.window
          (windowIn windowOf log call.bucket) call.now =
        some
          (start,
            position call.window
              (bucketTimes (log.map Prod.fst) call)) := by
  have hAdvance :
      advance call.window
          (windowIn windowOf log call.bucket) call.now =
        fixedWindow call.window
          (bucketTimes (log.map Prod.fst) call) := by
    unfold windowIn bucketTimes
    rw [← hWindow, timesOf_entries,
      fixedWindow_append_singleton]
  unfold position
  rw [← hAdvance]
  cases hBefore : windowIn windowOf log call.bucket with
  | none =>
      exact ⟨call.now, rfl⟩
  | some opened =>
      rw [advance_some]
      split
      · exact ⟨call.now, rfl⟩
      · exact ⟨opened.1, rfl⟩

/- The entry after a call is the window that it is in. -/
theorem advance_counted
    {counters : MemoryCounters}
    {log : List (Call × Bool)}
    {call : Call}
    (hStands : Stands windowOf counters log)
    (hHour : windowOf call.bucket ≤ hour)
    (hOk : Admissible windowOf (log.map Prod.fst) call) :
    advance call.window
        (windowIn windowOf log call.bucket) call.now =
      some
        ((counted counters call).2,
          (counted counters call).1) := by
  have hBucket := hStands call.bucket
  unfold counted
  cases hLookup : counters.buckets.lookup call.bucket with
  | none =>
      rw [hLookup] at hBucket
      have hOpened :
          advance call.window
              (windowIn windowOf log call.bucket) call.now =
            some (call.now, 1) := by
        cases hWindow :
          windowIn windowOf log call.bucket with
        | none => rfl
        | some opened =>
            obtain ⟨start, count⟩ := opened
            have hOld :=
              hBucket start count hWindow call.now
                (fun entry hEntry =>
                  hOk.inOrder entry.1
                    (List.mem_map_of_mem hEntry))
            rw [advance_some, if_pos]
            rw [hOk.window_eq]
            exact le_trans hHour hOld
      rw [hOpened]
      simp
  | some entry =>
      obtain ⟨count, started⟩ := entry
      rw [hLookup] at hBucket
      obtain ⟨start, hPosition⟩ :=
        advance_windowIn windowOf log hOk.window_eq
      have hFew := hOk.few
      change windowIn windowOf log call.bucket = _ at hBucket
      rw [hBucket, advance_some] at hPosition ⊢
      simp only [Option.getD_some]
      by_cases hElapsed :
        call.window ≤ durationSince call.now started
      · rw [if_pos hElapsed, if_pos hElapsed]
        rfl
      · rw [if_neg hElapsed] at hPosition ⊢
        rw [if_neg hElapsed]
        have hCount :
            count + 1 =
              position call.window
                (bucketTimes (log.map Prod.fst) call) :=
          congrArg Prod.snd (Option.some.inj hPosition)
        rw [← hCount] at hFew
        rw [Nat.mod_eq_of_lt hFew]

/- What another bucket stands for is not touched. -/
theorem EntryStands.other
    {log : List (Call × Bool)}
    {entry : Call × Bool}
    {bucket : String}
    (hOther : entry.1.bucket ≠ bucket)
    {held : Option (Nat × Nat)}
    (hStands : EntryStands windowOf log bucket held) :
    EntryStands windowOf (log ++ [entry]) bucket held := by
  cases held with
  | none =>
      intro start count hWindow now hPast
      rw [windowIn_other windowOf log hOther] at hWindow
      exact
        hStands start count hWindow now
          (fun earlier hEarlier =>
            hPast earlier (List.mem_append_left _ hEarlier))
  | some value =>
      obtain ⟨count, started⟩ := value
      change windowIn windowOf (log ++ [entry]) bucket = _
      rw [windowIn_other windowOf log hOther]
      exact hStands

/- An entry whose window started an hour ago can go. -/
theorem stands_sweep
    {counters : MemoryCounters}
    {log : List (Call × Bool)}
    {entry : Call × Bool}
    (hStands : Stands windowOf counters (log ++ [entry])) :
    Stands windowOf (sweep counters entry.1.now)
      (log ++ [entry]) := by
  intro bucket
  have hBucket := hStands bucket
  unfold sweep
  dsimp only
  split
  · dsimp only
    rw [lookup_retain]
    cases hLookup : counters.buckets.lookup bucket with
    | none =>
        rw [hLookup] at hBucket
        exact hBucket
    | some held =>
        obtain ⟨count, started⟩ := held
        rw [hLookup] at hBucket
        by_cases hRecent :
          durationSince entry.1.now started < hour
        · rw [Option.filter_some_pos (by simpa using hRecent)]
          exact hBucket
        · rw [Option.filter_some_neg (by simpa using hRecent)]
          intro start number hWindow now hPast
          change windowIn windowOf _ bucket = _ at hBucket
          rw [hBucket] at hWindow
          cases hWindow
          have hLast := hPast entry (by simp)
          unfold durationSince at hRecent ⊢
          omega
  · exact hBucket

/- One call is answered by its position in its window. -/
theorem checkUnswept_spec
    (hHour : ∀ bucket, windowOf bucket ≤ hour)
    {counters : MemoryCounters}
    {log : List (Call × Bool)}
    {call : Call}
    (hStands : Stands windowOf counters log)
    (hOk : Admissible windowOf (log.map Prod.fst) call) :
    (checkUnswept counters call).2 =
        rule.expected log call ∧
      Stands windowOf (checkUnswept counters call).1
        (log ++ [(call, (checkUnswept counters call).2)]) := by
  have hCounted :=
    advance_counted windowOf hStands (hHour call.bucket) hOk
  obtain ⟨start, hPosition⟩ :=
    advance_windowIn windowOf log hOk.window_eq
  rw [hCounted] at hPosition
  constructor
  · have hCount :
        (counted counters call).1 =
          position call.window
            (bucketTimes (log.map Prod.fst) call) :=
      congrArg Prod.snd (Option.some.inj hPosition)
    change
      decide ((counted counters call).1 ≤ call.limit) =
        decide
          (position call.window
              (timesOf (rule.entries call.bucket log) ++
                [call.now]) ≤ call.limit)
    rw [hCount, timesOf_entries]
    rfl
  · intro bucket
    unfold checkUnswept
    dsimp only
    by_cases hSame : bucket = call.bucket
    · subst hSame
      rw [AList.lookup_insert]
      change windowIn windowOf _ call.bucket = some (_, _)
      rw [windowIn_own, ← hOk.window_eq]
      exact hCounted
    · rw [AList.lookup_insert_ne hSame]
      exact (hStands bucket).other windowOf (Ne.symm hSame)

theorem step_checkUnswept
    (hHour : ∀ bucket, windowOf bucket ≤ hour) :
    Step rule checkUnswept (Admissible windowOf)
      (Stands windowOf) :=
  fun _ _ _ hStands hOk =>
    checkUnswept_spec windowOf hHour hStands hOk

theorem step_check
    (hHour : ∀ bucket, windowOf bucket ≤ hour) :
    Step rule check (Admissible windowOf)
      (Stands windowOf) := by
  intro counters log call hStands hOk
  have hSpec :=
    checkUnswept_spec windowOf hHour hStands hOk
  exact ⟨hSpec.1, stands_sweep windowOf hSpec.2⟩

--------------------
-- Every Run
--------------------

/- A window has no more calls than there are. -/
theorem position_le_length
    (window : Nat)
    (times : List Nat) :
    position window times ≤ times.length := by
  unfold position
  cases hWindow : fixedWindow window times with
  | none => exact Nat.zero_le _
  | some opened =>
      obtain ⟨start, count⟩ := opened
      obtain ⟨before, inside, hTimes, hCount, _⟩ :=
        fixedWindow_split hWindow
      have hLength := congrArg List.length hTimes
      rw [List.length_append, List.length_cons] at hLength
      change count ≤ times.length
      omega

/-
  In any run of calls in order, each bucket with one window
  of at most an hour and fewer than 2^32 calls in it, a call
  is allowed exactly when it is among the first `limit` of
  its bucket's window; and that is the answer with the other
  buckets left out, and with no sweep.
-/
theorem check_exact
    (windowOf : String → Nat)
    (hHour : ∀ bucket, windowOf bucket ≤ hour)
    (calls : List Call)
    (call : Call)
    (hSorted :
      ((calls ++ [call]).map Call.now).Pairwise (· ≤ ·))
    (hWindow :
      ∀ other ∈ calls ++ [call],
        other.window = windowOf other.bucket)
    (hFew :
      ∀ earlier other, earlier ++ [other] <+: calls ++ [call] →
        position other.window (bucketTimes earlier other) <
          2 ^ 32) :
    let counters := (record check .default calls).1
    ((check counters call).2 = true ↔
        position call.window (bucketTimes calls call) ≤
          call.limit) ∧
      (check counters call).2 =
        (check
          (record check .default
            (calls.filter (·.bucket = call.bucket))).1
          call).2 ∧
      (check counters call).2 =
        (checkUnswept
          (record checkUnswept .default calls).1
          call).2 := by
  intro counters
  have hOk : Meets (Admissible windowOf) (calls ++ [call]) := by
    intro earlier other hPrefix
    refine
      ⟨meets_of_pairwise hSorted earlier other hPrefix,
        hWindow other ?_, hFew earlier other hPrefix⟩
    exact hPrefix.subset (by simp)
  have hOwn :
      Meets (Admissible windowOf)
        ((calls ++ [call]).filter
          (fun other => other.bucket = call.bucket)) := by
    apply meets_filter call.bucket _ hOk
    intro earlier other hBucket hAdmissible
    refine
      ⟨fun one hOne =>
          hAdmissible.inOrder one (List.mem_of_mem_filter hOne),
        hAdmissible.window_eq, ?_⟩
    have hTimes :
        bucketTimes
            (earlier.filter
              (fun one => one.bucket = call.bucket)) other =
          bucketTimes earlier other := by
      unfold bucketTimes
      rw [hBucket]
      simp
    rw [hTimes]
    exact hAdmissible.few
  refine ⟨?_, ?_, ?_⟩
  · have hAnswer :=
      answer_of_step (step_check windowOf hHour)
        (stands_default windowOf) hOk
    rw [hAnswer]
    unfold Rule.expected
    change decide (position call.window (_ ++ _) ≤ _) = true ↔ _
    rw [rule_key, timesOf_entries, map_fst_record,
      decide_eq_true_eq]
    rfl
  · exact
      answer_alone (step_check windowOf hHour)
        (stands_default windowOf) (stands_default windowOf) hOk
        hOwn
  · exact
      answer_eq_of_steps (step_check windowOf hHour)
        (step_checkUnswept windowOf hHour)
        (stands_default windowOf) (stands_default windowOf) hOk

/- The third call of a minute, and one in the next minute. -/
theorem check_exact_minute :
    let at_ (seconds : Nat) : Call :=
      { bucket := "org:a"
        limit := 2
        window := 60 * second
        now := seconds * second }
    let other : Call :=
      { bucket := "org:b"
        limit := 2
        window := 60 * second
        now := 40 * second }
    let counters :=
      (record check .default [at_ 1, at_ 30, other]).1
    (check counters (at_ 60)).2 = false ∧
      (check counters (at_ 61)).2 = true := by
  intro at_ other counters
  have hFew (call : Call) (earlier : List Call) (one : Call)
      (hPrefix :
        earlier ++ [one] <+:
          [at_ 1, at_ 30, other] ++ [call]) :
      position one.window (bucketTimes earlier one) <
        2 ^ 32 := by
    have hCount :=
      position_le_length one.window (bucketTimes earlier one)
    have hLength :
        (bucketTimes earlier one).length =
          (earlier.filter
            (·.bucket = one.bucket)).length + 1 := by
      simp [bucketTimes]
    have hShort := hPrefix.length_le
    simp only [List.length_append, List.length_cons,
      List.length_nil] at hShort
    have hOwn :=
      List.length_filter_le (·.bucket = one.bucket) earlier
    omega
  have hFull :=
    check_exact (fun _ => 60 * second) (fun _ => by decide)
      [at_ 1, at_ 30, other] (at_ 60) (by decide) (by decide)
      (hFew _)
  have hNext :=
    check_exact (fun _ => 60 * second) (fun _ => by decide)
      [at_ 1, at_ 30, other] (at_ 61) (by decide) (by decide)
      (hFew _)
  constructor
  · rw [Bool.eq_false_iff]
    intro hAllowed
    exact absurd (hFull.1.mp hAllowed) (by decide)
  · exact hNext.1.mpr (by decide)

end RateLimit

end SentinelCommand
