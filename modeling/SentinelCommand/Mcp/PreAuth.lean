import Mathlib.Algebra.Order.Ring.Rat
import Mathlib.Tactic.Linarith
import SentinelCommand.Ws.NodeLimiter

/-
  `check_rate_in` of `mcp/pre_auth.rs`: the requests of the
  last minute for each tenant, and a sweep of all tenants
  once a minute. Times are rational numbers of seconds.

  The last theorem is about this limiter and the one of the
  node channel together: both count exactly.

  Key definitions include:
    * `Mcp.PreAuth.checkRateIn`, `Mcp.PreAuth.sweep`

  Correctness is proven by:
    * `Mcp.PreAuth.step_checkRateIn`
    * `Mcp.PreAuth.limiters_exact`
-/

--------------------
-- The Limiter
--------------------

namespace SentinelCommand

namespace Mcp

namespace PreAuth

open Window

def limitPerMinute : Nat := 600

/- Stamps for each tenant, and when the sweep last ran. -/
structure Buckets where
  perTenant : AList (fun _ : String => List ℚ)
  lastSweep : ℚ

/- `BUCKETS` starts empty, its sweep clock at zero. -/
def Buckets.start (lastSweep : ℚ) : Buckets where
  perTenant := ∅
  lastSweep := lastSweep

structure Request where
  tenant : String
  now : ℚ
  deriving DecidableEq, Repr

/- Drops the tenants whose last stamp is a minute old. -/
def sweep (buckets : Buckets) (now : ℚ) : Buckets :=
  if now - buckets.lastSweep > 60 then
    { lastSweep := now
      perTenant :=
        retain
          (fun _ hits => hits.getLast?.any (· > now - 60))
          buckets.perTenant }
  else
    buckets

/- `check_rate_in` after the sweep. -/
def checkSwept
    (buckets : Buckets)
    (request : Request) : Buckets × Bool :=
  let hits :=
    (held buckets.perTenant request.tenant).filter
      (· > request.now - 60)
  if hits.length ≥ limitPerMinute then
    ({ buckets with
        perTenant :=
          buckets.perTenant.insert request.tenant hits },
      false)
  else
    ({ buckets with
        perTenant :=
          buckets.perTenant.insert request.tenant
            (hits ++ [request.now]) },
      true)

def checkRateIn
    (buckets : Buckets)
    (request : Request) : Buckets × Bool :=
  checkSwept (sweep buckets request.now) request

end PreAuth

end Mcp

--------------------
-- Minutes
--------------------

namespace Mcp

namespace PreAuth

open CallLog Window

/- A stamp leaves the window when it is a minute old. -/
def lastMinute : Cutoff ℚ where
  old now stamp := stamp ≤ now - 60
  old_of_later := by
    intro now later stamp hLater hOld
    rw [decide_eq_true_eq] at hOld ⊢
    linarith
  old_of_earlier := by
    intro now earlier stamp hEarlier hOld
    rw [decide_eq_true_eq] at hOld ⊢
    linarith
  old_self := by
    intro now
    rw [decide_eq_false_iff_not]
    linarith

/- So it is in the window while it is less than that. -/
theorem old_eq_false_iff (now stamp : ℚ) :
    lastMinute.old now stamp = false ↔ now - stamp < 60 := by
  unfold lastMinute
  rw [decide_eq_false_iff_not, not_le]
  constructor <;> intro hRecent <;> linarith

theorem not_old_eq (now stamp : ℚ) :
    (!lastMinute.old now stamp) =
      decide (stamp > now - 60) := by
  unfold lastMinute
  simp [← not_le]

def requestRule : Rule Request Bool String :=
  limitRule Request.tenant Request.now lastMinute
    limitPerMinute

/-
  The requests of the tenant that were let through and are
  less than a minute old.
-/
def recentRequests
    (log : List (Request × Bool))
    (request : Request) : Nat :=
  log.countP
    (fun entry =>
      entry.2 ∧ entry.1.tenant = request.tenant ∧
        request.now - entry.1.now < 60)

theorem expected_requestRule
    (log : List (Request × Bool))
    (request : Request) :
    requestRule.expected log request =
      decide (recentRequests log request < limitPerMinute) := by
  unfold requestRule
  rw [expected_limitRule]
  simp only [old_eq_false_iff]
  rfl

end PreAuth

end Mcp

--------------------
-- What One Request Keeps
--------------------

namespace Mcp

namespace PreAuth

open CallLog Window

/- From the last request on, the stamps stand for the log. -/
def Kept
    (buckets : Buckets)
    (log : List (Request × Bool)) : Prop :=
  ∀ now, (∀ entry ∈ log, entry.1.now ≤ now) →
    TableStands lastMinute now buckets.perTenant
      (history requestRule Request.now id log)

theorem kept_start (lastSweep : ℚ) :
    Kept (.start lastSweep) [] := by
  intro now _
  exact TableStands.empty now (fun _ => rfl)

theorem lastFresh_eq (now : ℚ) :
    lastMinute.lastFresh now =
      fun hits => hits.getLast?.any (· > now - 60) := by
  funext hits
  unfold Cutoff.lastFresh
  congr 1
  funext last
  exact not_old_eq now last

theorem sweep_perTenant_stand
    {buckets : Buckets}
    {log : List (Request × Bool)}
    {now : ℚ}
    (hTable :
      TableStands lastMinute now buckets.perTenant
        (history requestRule Request.now id log)) :
    TableStands lastMinute now (sweep buckets now).perTenant
      (history requestRule Request.now id log) := by
  unfold sweep
  split
  · have hSwept := hTable.sweep
    rw [lastFresh_eq] at hSwept
    exact hSwept
  · exact hTable

/- After the sweep, a request is counted and stamped. -/
theorem checkSwept_spec
    {buckets : Buckets}
    {log : List (Request × Bool)}
    {request : Request}
    (hPast : ∀ entry ∈ log, entry.1.now ≤ request.now)
    (hTable :
      TableStands lastMinute request.now buckets.perTenant
        (history requestRule Request.now id log)) :
    (checkSwept buckets request).2 =
        requestRule.expected log request ∧
      TableStands lastMinute request.now
        (checkSwept buckets request).1.perTenant
        (history requestRule Request.now id
          (log ++ [(request, (checkSwept buckets request).2)])) := by
  have hTenant := hTable request.tenant
  have hSpec := hTable.answer hPast hTenant.fresh_eq
  have hHits :
      lastMinute.fresh request.now
          (held buckets.perTenant request.tenant) =
        (held buckets.perTenant request.tenant).filter
          (· > request.now - 60) := by
    unfold Cutoff.fresh
    simp only [not_old_eq]
  rw [hHits] at hSpec
  unfold checkSwept
  dsimp only
  split
  · rename_i hFull
    rw [if_neg (Nat.not_lt.mpr hFull),
      decide_eq_false (Nat.not_lt.mpr hFull)] at hSpec
    exact hSpec
  · rename_i hRoom
    rw [if_pos (Nat.not_le.mp hRoom),
      decide_eq_true (Nat.not_le.mp hRoom)] at hSpec
    exact hSpec

theorem step_checkRateIn :
    Step requestRule checkRateIn (InOrder Request.now)
      Kept := by
  apply step_of_moments
  · intro now later buckets log hLater hTable
    exact hTable.later hLater
  · intro buckets log request hPast hTable
    exact checkSwept_spec hPast (sweep_perTenant_stand hTable)

/- The same limiter that never sweeps. -/
theorem step_checkSwept :
    Step requestRule checkSwept (InOrder Request.now)
      Kept := by
  apply step_of_moments
  · intro now later buckets log hLater hTable
    exact hTable.later hLater
  · intro buckets log request hPast hTable
    exact checkSwept_spec hPast hTable

end PreAuth

end Mcp

--------------------
-- Every Run
--------------------

namespace Mcp

namespace PreAuth

open CallLog Window

variable {lastSweep : ℚ}
variable {requests : List Request}
variable {request : Request}

/- The limiter after some requests, and their log. -/
def checkAll
    (lastSweep : ℚ)
    (requests : List Request) :
    Buckets × List (Request × Bool) :=
  record checkRateIn (.start lastSweep) requests

theorem checkRateIn_eq
    (hSorted :
      ((requests ++ [request]).map Request.now).Pairwise
        (· ≤ ·)) :
    (checkRateIn (checkAll lastSweep requests).1 request).2 =
      decide
        (recentRequests (checkAll lastSweep requests).2
          request < limitPerMinute) := by
  have hAnswer :=
    answer_of_step step_checkRateIn (kept_start lastSweep)
      (meets_of_pairwise hSorted)
  rw [expected_requestRule] at hAnswer
  exact hAnswer

theorem checkRateIn_unswept
    (hSorted :
      ((requests ++ [request]).map Request.now).Pairwise
        (· ≤ ·)) :
    (checkRateIn (checkAll lastSweep requests).1 request).2 =
      (checkSwept
        (record checkSwept (.start lastSweep) requests).1
        request).2 :=
  answer_eq_of_steps step_checkRateIn step_checkSwept
    (kept_start lastSweep) (kept_start lastSweep)
    (meets_of_pairwise hSorted)

theorem exists_recent_of_mem_sweep
    (hSorted : (requests.map Request.now).Pairwise (· ≤ ·))
    {now : ℚ}
    (hNow : ∀ earlier ∈ requests, earlier.now ≤ now)
    (hDue :
      60 < now - (checkAll lastSweep requests).1.lastSweep)
    {tenant : String}
    (hHeld :
      tenant ∈
        (sweep (checkAll lastSweep requests).1
          now).perTenant) :
    ∃ entry ∈ (checkAll lastSweep requests).2,
      entry.1.tenant = tenant ∧ entry.2 = true ∧
        now - entry.1.now < 60 := by
  have hKept :=
    stands_record step_checkRateIn (kept_start lastSweep)
      (meets_of_pairwise hSorted)
  have hTable := hKept now (past_record _ hNow)
  unfold sweep at hHeld
  rw [if_pos hDue, ← lastFresh_eq] at hHeld
  obtain ⟨entry, hEntry, hTenant, hAllowed, hFresh⟩ :=
    exists_entry_of_mem_sweep hTable hHeld
  exact
    ⟨entry, hEntry, hTenant, hAllowed,
      (old_eq_false_iff now _).mp hFresh⟩

end PreAuth

end Mcp

--------------------
-- Both Limiters
--------------------

namespace Mcp

namespace PreAuth

open CallLog Window

theorem earlier_of_sorted
    {C T : Type}
    [LinearOrder T]
    {time : C → T}
    {calls : List C}
    {call : C}
    (hSorted :
      ((calls ++ [call]).map time).Pairwise (· ≤ ·)) :
    (calls.map time).Pairwise (· ≤ ·) ∧
      ∀ earlier ∈ calls, time earlier ≤ time call := by
  rw [List.map_append] at hSorted
  obtain ⟨hBefore, _, hLast⟩ := List.pairwise_append.mp hSorted
  exact
    ⟨hBefore, fun earlier hEarlier =>
      hLast _ (List.mem_map_of_mem hEarlier) _
        (List.mem_singleton.mpr rfl)⟩

/-
  Each limiter lets a call through exactly when fewer of its
  key than the limit were let through in the last minute,
  as it would without its sweep; and a sweep leaves only keys
  with such a call.
-/
theorem limiters_exact
    (max : Nat)
    (arrivals : List Ws.Arrival)
    (arrival : Ws.Arrival)
    (hArrivals :
      ((arrivals ++ [arrival]).map Ws.Arrival.now).Pairwise
        (· ≤ ·))
    (lastSweep : ℚ)
    (requests : List Request)
    (request : Request)
    (hRequests :
      ((requests ++ [request]).map Request.now).Pairwise
        (· ≤ ·)) :
    let channel := Ws.allowAll max arrivals
    let gate := checkAll lastSweep requests
    (((Ws.allow max channel.1 arrival).2 = true ↔
          Ws.recentArrivals channel.2 arrival < max) ∧
        (Ws.allow max channel.1 arrival).2 =
          (Ws.allowSwept max
            (record (Ws.allowSwept max) .default
              arrivals).1
            arrival).2 ∧
        ((∀ last ∈ channel.1.lastSweep,
            Ws.window ≤ Ws.durationSince arrival.now last) →
          ∀ nodeId ∈ (Ws.sweep channel.1 arrival.now).windows,
            ∃ entry ∈ channel.2,
              entry.1.nodeId = nodeId ∧ entry.2 = true ∧
                Ws.durationSince arrival.now entry.1.now <
                  Ws.window)) ∧
      ((checkRateIn gate.1 request).2 = true ↔
          recentRequests gate.2 request < limitPerMinute) ∧
        (checkRateIn gate.1 request).2 =
          (checkSwept
            (record checkSwept (.start lastSweep) requests).1
            request).2 ∧
        (60 < request.now - gate.1.lastSweep →
          ∀ tenant ∈ (sweep gate.1 request.now).perTenant,
            ∃ entry ∈ gate.2,
              entry.1.tenant = tenant ∧ entry.2 = true ∧
                request.now - entry.1.now < 60) := by
  intro channel gate
  obtain ⟨hArrivalsBefore, hArrivalLast⟩ :=
    earlier_of_sorted hArrivals
  obtain ⟨hRequestsBefore, hRequestLast⟩ :=
    earlier_of_sorted hRequests
  refine ⟨⟨?_, Ws.allow_unswept max hArrivals, ?_⟩, ?_,
    checkRateIn_unswept hRequests, ?_⟩
  · rw [Ws.allow_eq max hArrivals, decide_eq_true_eq]
  · intro hDue nodeId hHeld
    exact
      Ws.exists_recent_of_mem_sweep max hArrivalsBefore
        hArrivalLast hDue hHeld
  · rw [checkRateIn_eq hRequests, decide_eq_true_eq]
  · intro hDue tenant hHeld
    exact
      exists_recent_of_mem_sweep hRequestsBefore hRequestLast
        hDue hHeld

/- A node at its limit, and a tenant far below it. -/
theorem limiters_exact_full :
    let at_ (nodeId : String) (seconds : Nat) : Ws.Arrival :=
      { nodeId, now := seconds * 1000000000 }
    let channel := Ws.allowAll 1 [at_ "a" 1, at_ "b" 2]
    let gate := checkAll 0 [{ tenant := "ip", now := 3 }]
    (Ws.allow 1 channel.1 (at_ "a" 60)).2 = false ∧
      (checkRateIn gate.1 { tenant := "ip", now := 4 }).2 =
        true := by
  intro at_ channel gate
  have hBoth :=
    limiters_exact 1 [at_ "a" 1, at_ "b" 2] (at_ "a" 60)
      (by decide) 0 [{ tenant := "ip", now := 3 }]
      { tenant := "ip", now := 4 } (by decide)
  constructor
  · rw [Bool.eq_false_iff]
    intro hAllowed
    have hBelow := hBoth.1.1.mp hAllowed
    have hOne :
        Ws.recentArrivals channel.2 (at_ "a" 60) = 1 := by
      decide
    change Ws.recentArrivals channel.2 (at_ "a" 60) < 1 at hBelow
    omega
  · apply hBoth.2.1.mpr
    have hOne :
        recentRequests gate.2 { tenant := "ip", now := 4 } =
          1 := by
      decide +kernel
    change recentRequests gate.2 _ < 600
    omega

end PreAuth

end Mcp

end SentinelCommand
