import SentinelCommand.Lib.Window

/-
  `NodeRateLimiter` of `ws.rs`: the messages or connects of
  the last minute for each node, and a sweep of all nodes
  once a minute.

  Instants are nanoseconds of a clock that does not go back.

  Key definitions include:
    * `Ws.LimiterInner`
    * `Ws.sweep`, `Ws.allow`, `Ws.forget`

  Correctness is proven by:
    * `Ws.step_allow`
    * `Ws.allow_eq`, `Ws.allow_unswept`
-/

--------------------
-- The Limiter
--------------------

namespace SentinelCommand

namespace Ws

open Window

def window : Nat := 60 * 1000000000

structure LimiterInner where
  windows : AList (fun _ : String => List Nat)
  lastSweep : Option Nat

/- `LimiterInner::default`. -/
def LimiterInner.default : LimiterInner where
  windows := ∅
  lastSweep := none

/- `duration_since` is zero for a later instant. -/
def durationSince (now earlier : Nat) : Nat :=
  now - earlier

/- Drops the nodes whose last stamp is a minute old. -/
def sweep (inner : LimiterInner) (now : Nat) : LimiterInner :=
  if inner.lastSweep.any (durationSince now · < window) then
    inner
  else
    { lastSweep := some now
      windows :=
        retain
          (fun _ stamps =>
            stamps.getLast?.any (durationSince now · < window))
          inner.windows }

/- One message or connect of a node. -/
structure Arrival where
  nodeId : String
  now : Nat
  deriving DecidableEq, Repr

/- `allow` after the sweep. -/
def allowSwept
    (max : Nat)
    (inner : LimiterInner)
    (arrival : Arrival) : LimiterInner × Bool :=
  let stamps :=
    (held inner.windows arrival.nodeId).dropWhile
      (durationSince arrival.now · ≥ window)
  if stamps.length ≥ max then
    ({ inner with
        windows := inner.windows.insert arrival.nodeId stamps },
      false)
  else
    ({ inner with
        windows :=
          inner.windows.insert arrival.nodeId
            (stamps ++ [arrival.now]) },
      true)

def allow
    (max : Nat)
    (inner : LimiterInner)
    (arrival : Arrival) : LimiterInner × Bool :=
  allowSwept max (sweep inner arrival.now) arrival

/- Drops the stamps of a node. -/
def forget
    (inner : LimiterInner)
    (nodeId : String) : LimiterInner :=
  { inner with windows := inner.windows.erase nodeId }

open CallLog Window

/- A stamp leaves the window when it is a minute old. -/
def lastMinute : Cutoff Nat where
  old now stamp := durationSince now stamp ≥ window
  old_of_later := by
    intro now later stamp hLater hOld
    rw [decide_eq_true_eq] at hOld ⊢
    unfold durationSince at hOld ⊢
    omega
  old_of_earlier := by
    intro now earlier stamp hEarlier hOld
    rw [decide_eq_true_eq] at hOld ⊢
    unfold durationSince at hOld ⊢
    omega
  old_self := by
    intro now
    rw [decide_eq_false_iff_not]
    unfold durationSince window
    omega

theorem old_eq_false_iff (now stamp : Nat) :
    lastMinute.old now stamp = false ↔
      durationSince now stamp < window := by
  simp [lastMinute]

/- The rule of a limiter that lets `max` a minute through. -/
def arrivalRule (max : Nat) : Rule Arrival Bool String :=
  limitRule Arrival.nodeId Arrival.now lastMinute max

/-
  The arrivals of the node that were let through and are less
  than a minute old.
-/
def recentArrivals
    (log : List (Arrival × Bool))
    (arrival : Arrival) : Nat :=
  log.countP
    (fun entry =>
      entry.2 ∧ entry.1.nodeId = arrival.nodeId ∧
        durationSince arrival.now entry.1.now < window)

theorem expected_arrivalRule
    (max : Nat)
    (log : List (Arrival × Bool))
    (arrival : Arrival) :
    (arrivalRule max).expected log arrival =
      decide (recentArrivals log arrival < max) := by
  unfold arrivalRule
  rw [expected_limitRule]
  simp only [old_eq_false_iff]
  rfl

--------------------
-- What One Arrival Keeps
--------------------

variable (max : Nat)

/- From the last arrival on, the stamps stand for the log. -/
def Kept
    (inner : LimiterInner)
    (log : List (Arrival × Bool)) : Prop :=
  ∀ now, (∀ entry ∈ log, entry.1.now ≤ now) →
    TableStands lastMinute now inner.windows
      (history (arrivalRule max) Arrival.now id log)

theorem kept_default : Kept max .default [] := by
  intro now _
  exact TableStands.empty now (fun _ => rfl)

/- The sweep keeps the nodes with a stamp in the window. -/
theorem lastFresh_eq (now : Nat) :
    lastMinute.lastFresh now =
      fun stamps =>
        stamps.getLast?.any (durationSince now · < window) := by
  funext stamps
  unfold Cutoff.lastFresh
  congr 1
  funext last
  cases hOld : lastMinute.old now last with
  | true =>
      rw [← Bool.not_eq_false, old_eq_false_iff] at hOld
      simp [hOld]
  | false =>
      rw [old_eq_false_iff] at hOld
      simp [hOld]

/- The sweep loses nothing of a history. -/
theorem sweep_windows_stand
    {inner : LimiterInner}
    {stamps : String → List Nat}
    {now : Nat}
    (hTable :
      TableStands lastMinute now inner.windows stamps) :
    TableStands lastMinute now (sweep inner now).windows
      stamps := by
  unfold sweep
  split
  · exact hTable
  · have hSwept := hTable.sweep
    rw [lastFresh_eq] at hSwept
    exact hSwept

/- After the sweep, an arrival is counted and stamped. -/
theorem allowSwept_spec
    {inner : LimiterInner}
    {log : List (Arrival × Bool)}
    {arrival : Arrival}
    (hPast : ∀ entry ∈ log, entry.1.now ≤ arrival.now)
    (hTable :
      TableStands lastMinute arrival.now inner.windows
        (history (arrivalRule max) Arrival.now id log)) :
    (allowSwept max inner arrival).2 =
        (arrivalRule max).expected log arrival ∧
      TableStands lastMinute arrival.now
        (allowSwept max inner arrival).1.windows
        (history (arrivalRule max) Arrival.now id
          (log ++
            [(arrival, (allowSwept max inner arrival).2)])) := by
  have hNode := hTable arrival.nodeId
  have hSpec := hTable.answer hPast hNode.trim_eq
  have hTrim :
      lastMinute.trim arrival.now
          (held inner.windows arrival.nodeId) =
        (held inner.windows arrival.nodeId).dropWhile
          (durationSince arrival.now · ≥ window) := by
    rfl
  rw [hTrim] at hSpec
  unfold allowSwept
  dsimp only
  split
  · rename_i hFull
    rw [if_neg (Nat.not_lt.mpr hFull),
      decide_eq_false (Nat.not_lt.mpr hFull)] at hSpec
    exact hSpec
  · rename_i hRoom
    rw [if_pos (Nat.not_le.mp hRoom),
      decide_eq_true (Nat.not_le.mp hRoom)] at hSpec
    exact hSpec

theorem step_allow :
    Step (arrivalRule max) (allow max)
      (InOrder Arrival.now) (Kept max) := by
  apply step_of_moments
  · intro now later inner log hLater hTable
    exact hTable.later hLater
  · intro inner log arrival hPast hTable
    exact
      allowSwept_spec max hPast (sweep_windows_stand hTable)

/- The same limiter that never sweeps. -/
theorem step_allowSwept :
    Step (arrivalRule max) (allowSwept max)
      (InOrder Arrival.now) (Kept max) := by
  apply step_of_moments
  · intro now later inner log hLater hTable
    exact hTable.later hLater
  · intro inner log arrival hPast hTable
    exact allowSwept_spec max hPast hTable

variable {arrivals : List Arrival}
variable {arrival : Arrival}

/- The limiter after some arrivals, and their log. -/
def allowAll
    (arrivals : List Arrival) :
    LimiterInner × List (Arrival × Bool) :=
  record (allow max) .default arrivals

/- An arrival is let through below the limit. -/
theorem allow_eq
    (hSorted :
      ((arrivals ++ [arrival]).map Arrival.now).Pairwise
        (· ≤ ·)) :
    (allow max (allowAll max arrivals).1 arrival).2 =
      decide
        (recentArrivals (allowAll max arrivals).2 arrival <
          max) := by
  have hAnswer :=
    answer_of_step (step_allow max) (kept_default max)
      (meets_of_pairwise hSorted)
  rw [expected_arrivalRule] at hAnswer
  exact hAnswer

/- Without the sweep the answer is the same. -/
theorem allow_unswept
    (hSorted :
      ((arrivals ++ [arrival]).map Arrival.now).Pairwise
        (· ≤ ·)) :
    (allow max (allowAll max arrivals).1 arrival).2 =
      (allowSwept max
        (record (allowSwept max) .default arrivals).1
        arrival).2 :=
  answer_eq_of_steps (step_allow max) (step_allowSwept max)
    (kept_default max) (kept_default max)
    (meets_of_pairwise hSorted)

/-
  After a sweep at `now`, a node that is still held has an
  arrival that was let through less than a minute ago.
-/
theorem exists_recent_of_mem_sweep
    (hSorted : (arrivals.map Arrival.now).Pairwise (· ≤ ·))
    {now : Nat}
    (hNow : ∀ earlier ∈ arrivals, earlier.now ≤ now)
    (hDue :
      ∀ last ∈ (allowAll max arrivals).1.lastSweep,
        window ≤ durationSince now last)
    {nodeId : String}
    (hHeld :
      nodeId ∈
        (sweep (allowAll max arrivals).1 now).windows) :
    ∃ entry ∈ (allowAll max arrivals).2,
      entry.1.nodeId = nodeId ∧ entry.2 = true ∧
        durationSince now entry.1.now < window := by
  have hKept :=
    stands_record (step_allow max) (kept_default max)
      (meets_of_pairwise hSorted)
  have hTable := hKept now (past_record _ hNow)
  have hSwept :
      (sweep (allowAll max arrivals).1 now).windows =
        retain (fun _ => lastMinute.lastFresh now)
          (allowAll max arrivals).1.windows := by
    rw [lastFresh_eq]
    unfold sweep
    cases hLast : (allowAll max arrivals).1.lastSweep with
    | none => rfl
    | some last =>
        have hOld := Nat.not_lt.mpr (hDue last hLast)
        simp [hOld]
  rw [hSwept] at hHeld
  obtain ⟨entry, hEntry, hNode, hAllowed, hFresh⟩ :=
    exists_entry_of_mem_sweep hTable hHeld
  exact
    ⟨entry, hEntry, hNode, hAllowed,
      (old_eq_false_iff now _).mp hFresh⟩

end Ws

end SentinelCommand
