import Mathlib.Algebra.Group.Nat.Defs
import Mathlib.Algebra.GroupWithZero.Nat
import SentinelCommand.Lib.Run

/-
  The shared counters of `ratelimit.rs`: a check is an `INCR`
  of the bucket's key and, when that answers one, an `EXPIRE`
  whose failure is ignored.

  The key belongs to a server with a clock of milliseconds.
  Any number of calls are in flight; a command is atomic at
  the server and can fail before it gets there or lose its
  reply, and a process can die between its two commands.

  Key definitions include:
    * `RateLimit.Redis.Server`, `RateLimit.Redis.step`
    * `RateLimit.Redis.Stuck`

  Correctness is proven by:
    * `RateLimit.Redis.sound_step`
    * `RateLimit.Redis.recovers`
-/

--------------------
-- The Server
--------------------

namespace SentinelCommand

namespace RateLimit

namespace Redis

/- A counter, and when it expires if it does. -/
structure Key where
  count : Nat
  deadline : Option Nat
  deriving DecidableEq, Repr

/-
  The bucket's key, the clock, and the calls that were
  answered one and have not sent their `EXPIRE` yet.
-/
structure Server where
  key : Option Key
  clock : Nat
  pending : List Nat
  deriving DecidableEq, Repr

def Server.initial : Server where
  key := none
  clock := 0
  pending := []

/- A key is there up to its deadline. -/
def Key.live (now : Nat) (key : Key) : Bool :=
  key.deadline.all (now ≤ ·)

/- The key as a command finds it. -/
def Server.current (s : Server) : Option Key :=
  s.key.filter (Key.live s.clock)

/-
  `INCR`: the new count, or an error at the end of the 64-bit
  range. An absent key counts from zero and does not expire.
-/
def incr (s : Server) : Server × Option Nat :=
  match s.current with
  | none =>
      ({ s with key := some { count := 1, deadline := none } },
        some 1)
  | some key =>
      if key.count + 1 < 2 ^ 63 then
        ({ s with key := some { key with count := key.count + 1 } },
          some (key.count + 1))
      else
        (s, none)

/- `EXPIRE`: an absent key stays so, zero seconds delete it. -/
def expire (s : Server) (seconds : Nat) : Server :=
  match s.current with
  | none => s
  | some key =>
      if seconds = 0 then
        { s with key := none }
      else
        { s with
          key :=
            some
              { key with
                deadline := some (s.clock + seconds * 1000) } }

end Redis

end RateLimit

--------------------
-- Checks
--------------------

namespace RateLimit

namespace Redis

/- What becomes of a command. -/
inductive Outcome where
  | done
  | failed
  | lost
  deriving DecidableEq, Repr

/- The answer decoded as `u32`, an error where it is none. -/
def decode (reply : Option Nat) : Option Nat :=
  reply.filter (· < 2 ^ 32)

/- Below the limit, or without a count, a call is allowed. -/
def allowed (limit : Nat) (count : Option Nat) : Bool :=
  match count with
  | some count => count ≤ limit
  | none => true

/- `INCR` with what becomes of it, and the count decoded. -/
def sendIncr
    (s : Server)
    (outcome : Outcome) : Server × Option Nat :=
  match outcome with
  | .done => ((incr s).1, decode (incr s).2)
  | .failed => (s, none)
  | .lost => ((incr s).1, none)

/- `window.as_secs()` of a window in milliseconds. -/
def asSecs (window : Nat) : Nat :=
  window / 1000

inductive Event where
  | pass (elapsed : Nat)
  | incr (call : Nat) (outcome : Outcome)
  | expire (call : Nat) (outcome : Outcome)
  | die (call : Nat)
  deriving DecidableEq, Repr

/-
  Time passes; a call sends its `INCR`; a call that was
  answered one sends its `EXPIRE`, or its process is gone.
-/
def step (window : Nat) (s : Server) : Event → Server
| .pass elapsed => { s with clock := s.clock + elapsed }
| .incr call outcome =>
    let sent := sendIncr s outcome
    if sent.2 = some 1 then
      { sent.1 with pending := s.pending ++ [call] }
    else
      sent.1
| .expire call outcome =>
    if call ∈ s.pending then
      let after :=
        if outcome = .failed then s
        else Redis.expire s (asSecs window)
      { after with pending := s.pending.erase call }
    else
      s
| .die call =>
    { s with pending := s.pending.erase call }

/- What a check at `s` is answered. -/
def check
    (limit : Nat)
    (s : Server)
    (outcome : Outcome) : Bool :=
  allowed limit (sendIncr s outcome).2

end Redis

end RateLimit

--------------------
-- Recovery
--------------------

namespace RateLimit

namespace Redis

/- Time and failed commands only: no `INCR` arrives. -/
def Quiet (event : Event) : Prop :=
  match event with
  | .incr _ outcome => outcome = .failed
  | _ => True

instance decidableQuiet :
    (event : Event) → Decidable (Quiet event)
| .pass _ => isTrue trivial
| .incr _ outcome => inferInstanceAs (Decidable (outcome = _))
| .expire _ _ => isTrue trivial
| .die _ => isTrue trivial

def elapsed : Event → Nat
| .pass elapsed => elapsed
| _ => 0

/-
  A key that will not expire, its count at the limit but not
  past what the reply is decoded as.
-/
def Stuck (limit : Nat) (s : Server) : Prop :=
  ∃ key ∈ s.key,
    key.deadline = none ∧ limit ≤ key.count ∧
      key.count + 1 < 2 ^ 32

/-
  No step loses an `EXPIRE`: a call that takes the counter to
  one hears of it and its `EXPIRE` reaches the server.
-/
def KeepsExpiry (s : Server) : Event → Prop
| .pass _ => True
| .incr _ outcome => s.current = none → outcome ≠ .lost
| .expire call outcome =>
    call ∈ s.pending → outcome ≠ .failed
| .die call => call ∉ s.pending

instance decidableKeepsExpiry
    (s : Server) :
    (event : Event) → Decidable (KeepsExpiry s event)
| .pass _ => isTrue trivial
| .incr _ outcome =>
    inferInstanceAs
      (Decidable (s.current = none → outcome ≠ .lost))
| .expire call outcome =>
    inferInstanceAs
      (Decidable (call ∈ s.pending → outcome ≠ .failed))
| .die call =>
    inferInstanceAs (Decidable (call ∉ s.pending))

end Redis

end RateLimit

--------------------
-- Commands
--------------------

namespace RateLimit

namespace Redis

theorem mem_of_current
    {s : Server}
    {key : Key}
    (hCurrent : s.current = some key) :
    s.key = some key ∧ Key.live s.clock key = true := by
  unfold Server.current at hCurrent
  exact Option.filter_eq_some_iff.mp hCurrent

/- A key without a deadline is always found. -/
theorem current_of_deadline_none
    {s : Server}
    {key : Key}
    (hKey : s.key = some key)
    (hDeadline : key.deadline = none) :
    s.current = some key := by
  unfold Server.current
  rw [hKey]
  exact
    Option.filter_some_pos (by simp [Key.live, hDeadline])

/- A command changes the key, not the clock. -/
theorem clock_incr (s : Server) :
    (incr s).1.clock = s.clock := by
  unfold incr
  split
  · rfl
  · split <;> rfl

theorem pending_incr (s : Server) :
    (incr s).1.pending = s.pending := by
  unfold incr
  split
  · rfl
  · split <;> rfl

theorem pending_sendIncr (s : Server) (outcome : Outcome) :
    (sendIncr s outcome).1.pending = s.pending := by
  cases outcome with
  | done => exact pending_incr s
  | failed => rfl
  | lost => exact pending_incr s

/-
  A new key has no deadline, one that is there keeps its own.
-/
theorem key_incr
    {s : Server}
    {key : Key}
    (hKey : (incr s).1.key = some key) :
    (s.current = none ∧
        key = { count := 1, deadline := none }) ∨
      ∃ before, s.key = some before ∧
        key.deadline = before.deadline := by
  unfold incr at hKey
  cases hCurrent : s.current with
  | none =>
      rw [hCurrent] at hKey
      exact Or.inl ⟨rfl, (Option.some.inj hKey).symm⟩
  | some before =>
      rw [hCurrent] at hKey
      have hBefore := (mem_of_current hCurrent).1
      dsimp only at hKey
      split at hKey
      · exact
          Or.inr
            ⟨before, hBefore, by rw [← Option.some.inj hKey]⟩
      · exact Or.inr ⟨key, hKey, rfl⟩

/- `EXPIRE` leaves no key without a deadline. -/
theorem key_expire
    {s : Server}
    {seconds : Nat}
    {key : Key}
    (hKey : (expire s seconds).key = some key) :
    (s.key = some key ∧ key.deadline ≠ none) ∨
      key.deadline = some (s.clock + seconds * 1000) := by
  unfold expire at hKey
  cases hCurrent : s.current with
  | none =>
      rw [hCurrent] at hKey
      refine Or.inl ⟨hKey, fun hNone => ?_⟩
      have hFound := current_of_deadline_none hKey hNone
      rw [hCurrent] at hFound
      cases hFound
  | some before =>
      rw [hCurrent] at hKey
      dsimp only at hKey
      split at hKey
      · cases hKey
      · exact Or.inr (by rw [← Option.some.inj hKey])

theorem clock_expire (s : Server) (seconds : Nat) :
    (expire s seconds).clock = s.clock := by
  unfold expire
  split
  · rfl
  · split <;> rfl

end Redis

end RateLimit

--------------------
-- What Every Step Keeps
--------------------

namespace RateLimit

namespace Redis

variable {window : Nat}

/- No deadline is further off than a window. -/
def Near (window : Nat) (s : Server) : Prop :=
  ∀ key deadline,
    s.key = some key → key.deadline = some deadline →
      deadline ≤ s.clock + window

/- A key without a deadline has a call that will set it. -/
def Awaited (s : Server) : Prop :=
  ∀ key, s.key = some key → key.deadline = none →
    s.pending ≠ []

theorem near_sendIncr
    {s : Server}
    (hNear : Near window s)
    (outcome : Outcome) :
    Near window (sendIncr s outcome).1 := by
  have hIncr : Near window (incr s).1 := by
    intro key deadline hKey hDeadline
    rw [clock_incr]
    rcases key_incr hKey with ⟨_, hNew⟩ | ⟨before, hBefore, hSame⟩
    · rw [hNew] at hDeadline
      cases hDeadline
    · exact hNear before deadline hBefore (hSame ▸ hDeadline)
  cases outcome with
  | done => exact hIncr
  | failed => exact hNear
  | lost => exact hIncr

theorem near_expire
    {s : Server}
    (hNear : Near window s) :
    Near window (expire s (asSecs window)) := by
  intro key deadline hKey hDeadline
  rw [clock_expire]
  rcases key_expire hKey with ⟨hSame, _⟩ | hSet
  · exact hNear key deadline hSame hDeadline
  · rw [hSet] at hDeadline
    cases hDeadline
    have hWhole := Nat.div_mul_le_self window 1000
    unfold asSecs
    omega

theorem near_step
    (s : Server)
    (event : Event)
    (hNear : Near window s) :
    Near window (step window s event) := by
  cases event with
  | pass elapsed =>
      intro key deadline hKey hDeadline
      have hBefore := hNear key deadline hKey hDeadline
      change deadline ≤ s.clock + elapsed + window
      omega
  | incr call outcome =>
      have hSent := near_sendIncr hNear outcome
      unfold step
      dsimp only
      split
      · exact hSent
      · exact hSent
  | expire call outcome =>
      unfold step
      dsimp only
      split
      · split
        · exact hNear
        · exact near_expire hNear
      · exact hNear
  | die call =>
      exact hNear

theorem key_step_incr
    (s : Server)
    (call : Nat)
    (outcome : Outcome) :
    (step window s (.incr call outcome)).key =
      (sendIncr s outcome).1.key := by
  unfold step
  dsimp only
  split <;> rfl

theorem pending_step_incr
    (s : Server)
    (call : Nat)
    (outcome : Outcome) :
    (step window s (.incr call outcome)).pending =
      if (sendIncr s outcome).2 = some 1 then
        s.pending ++ [call]
      else
        s.pending := by
  unfold step
  dsimp only
  split
  · rfl
  · exact pending_sendIncr s outcome

/- The call that makes the key hears of it. -/
theorem awaited_incr
    {s : Server}
    (hAwaited : Awaited s)
    (call : Nat)
    {outcome : Outcome}
    (hKeeps : s.current = none → outcome ≠ .lost) :
    Awaited (step window s (.incr call outcome)) := by
  intro key hKey hNone
  rw [key_step_incr] at hKey
  rw [pending_step_incr]
  have hOld (hPending : s.pending ≠ []) :
      (if (sendIncr s outcome).2 = some 1 then
          s.pending ++ [call]
        else
          s.pending) ≠ [] := by
    split
    · simp
    · exact hPending
  cases outcome with
  | failed =>
      exact hOld (hAwaited key hKey hNone)
  | done =>
      rcases key_incr hKey with ⟨hAbsent, _⟩ | ⟨before, hBefore, hSame⟩
      · have hOne : (sendIncr s .done).2 = some 1 := by
          change decode (incr s).2 = some 1
          unfold incr
          rw [hAbsent]
          rfl
        rw [if_pos hOne]
        simp
      · exact
          hOld (hAwaited before hBefore (hSame ▸ hNone))
  | lost =>
      rcases key_incr hKey with ⟨hAbsent, _⟩ | ⟨before, hBefore, hSame⟩
      · exact absurd rfl (hKeeps hAbsent)
      · exact
          hOld (hAwaited before hBefore (hSame ▸ hNone))

theorem awaited_step
    (s : Server)
    (event : Event)
    (hAwaited : Awaited s)
    (hKeeps : KeepsExpiry s event) :
    Awaited (step window s event) := by
  cases event with
  | pass elapsed =>
      exact hAwaited
  | incr call outcome =>
      exact awaited_incr hAwaited call hKeeps
  | expire call outcome =>
      unfold step
      dsimp only
      split
      · rename_i hPending
        rw [if_neg (hKeeps hPending)]
        intro key hKey hNone
        change (Redis.expire s (asSecs window)).key = _ at hKey
        rcases key_expire hKey with ⟨_, hSome⟩ | hSet
        · exact absurd hNone hSome
        · rw [hNone] at hSet
          cases hSet
      · exact hAwaited
  | die call =>
      unfold step
      have hSame : s.pending.erase call = s.pending :=
        List.erase_of_not_mem hKeeps
      dsimp only
      rw [hSame]
      exact hAwaited

end Redis

end RateLimit

--------------------
-- Every Run
--------------------

namespace RateLimit

namespace Redis

variable {window : Nat}

/- Without an `INCR` and with no call left, time passes. -/
theorem exec_quiet
    (s : Server)
    (hDone : s.pending = [])
    {quiet : List Event}
    (hQuiet : ∀ event ∈ quiet, Quiet event) :
    Run.exec (step window) s quiet =
      { s with clock := s.clock + (quiet.map elapsed).sum } := by
  induction quiet generalizing s with
  | nil => rfl
  | cons event rest ih =>
      obtain ⟨hEvent, hRest⟩ := List.forall_mem_cons.mp hQuiet
      have hStep :
          step window s event =
            { s with clock := s.clock + elapsed event } := by
        cases event with
        | pass elapsed => rfl
        | incr call outcome =>
            change outcome = .failed at hEvent
            rw [hEvent]
            rfl
        | expire call outcome =>
            have hNotHere : call ∉ s.pending := by
              rw [hDone]
              exact List.not_mem_nil
            exact if_neg hNotHere
        | die call =>
            have hNotHere : call ∉ s.pending := by
              rw [hDone]
              exact List.not_mem_nil
            unfold step
            dsimp only
            rw [List.erase_of_not_mem hNotHere]
            rfl
      have hAfter :=
        ih { s with clock := s.clock + elapsed event } hDone
          hRest
      rw [Run.exec_cons, hStep, hAfter]
      simp [Nat.add_assoc]

/-
  After more than a window without an `INCR` only a key that
  does not expire is still there.
-/
theorem current_after_window
    {s : Server}
    (hNear : Near window s)
    {now : Nat}
    (hWhole : s.clock + window < now) :
    ({ s with clock := now } : Server).current =
      s.key.filter (·.deadline = none) := by
  unfold Server.current
  dsimp only
  cases hKey : s.key with
  | none => rfl
  | some key =>
      cases hDeadline : key.deadline with
      | none =>
          simp [Option.filter, Key.live, hDeadline]
      | some deadline =>
          have hBefore := hNear key deadline hKey hDeadline
          have hPast : ¬now ≤ deadline := by omega
          simp [Option.filter, Key.live, hDeadline, hPast]

theorem allowed_decode_iff (limit reply : Nat) :
    allowed limit (decode (some reply)) = true ↔
      ¬(limit < reply ∧ reply < 2 ^ 32) := by
  unfold decode
  rw [Option.filter_some]
  by_cases hFits : reply < 2 ^ 32
  · rw [if_pos (decide_eq_true hFits)]
    unfold allowed
    dsimp only
    rw [decide_eq_true_eq]
    omega
  · rw [if_neg (by simpa only [decide_eq_true_eq] using hFits)]
    have hAllowed : allowed limit none = true := rfl
    simp only [hAllowed, true_iff]
    omega

/- A check is refused by a count that is past the limit. -/
theorem check_eq_true_iff
    {limit : Nat}
    (hLimit : 1 ≤ limit)
    (s : Server) :
    (∀ outcome, check limit s outcome = true) ↔
      ∀ key, s.current = some key →
        ¬(limit ≤ key.count ∧ key.count + 1 < 2 ^ 32) := by
  have hDone :
      (∀ outcome, check limit s outcome = true) ↔
        check limit s .done = true := by
    constructor
    · intro hAll
      exact hAll .done
    · intro hDone outcome
      cases outcome with
      | done => exact hDone
      | failed => rfl
      | lost => rfl
  rw [hDone]
  unfold check sendIncr incr
  cases hCurrent : s.current with
  | none =>
      dsimp only
      rw [allowed_decode_iff]
      constructor
      · intro _ key hKey
        cases hKey
      · intro _ hRefused
        omega
  | some key =>
      have hCount :
          (∀ other, some key = some other →
              ¬(limit ≤ other.count ∧
                other.count + 1 < 2 ^ 32)) ↔
            ¬(limit ≤ key.count ∧ key.count + 1 < 2 ^ 32) := by
        constructor
        · intro hAll
          exact hAll key rfl
        · rintro hKey other ⟨⟩
          exact hKey
      rw [hCount]
      dsimp only
      by_cases hReply : key.count + 1 < 2 ^ 63
      · rw [if_pos hReply]
        dsimp only
        rw [allowed_decode_iff, Nat.lt_succ_iff]
      · rw [if_neg hReply]
        have hAllowed : allowed limit (decode none) = true := rfl
        simp only [hAllowed, true_iff]
        omega

/-
  After any run of checks with none left, and then more than
  a window without an `INCR`, the next check is allowed
  exactly when the key was not stuck; and no run that kept
  every `EXPIRE` leaves it stuck.
-/
theorem recovers
    (window limit : Nat)
    (hLimit : 1 ≤ limit)
    (events quiet : List Event)
    (hDone :
      (Run.exec (step window) .initial events).pending = [])
    (hQuiet : ∀ event ∈ quiet, Quiet event)
    (hWhole : window < (quiet.map elapsed).sum) :
    let s := Run.exec (step window) .initial events
    ((∀ outcome,
        check limit (Run.exec (step window) s quiet) outcome =
          true) ↔
      ¬Stuck limit s) ∧
      (Run.Meets (step window) KeepsExpiry .initial events →
        ∀ outcome,
          check limit (Run.exec (step window) s quiet)
            outcome = true) := by
  intro s
  have hNear : Near window s :=
    Run.invariant_exec near_step events (fun _ _ hKey => nomatch hKey)
  have hExact :
      (∀ outcome,
          check limit (Run.exec (step window) s quiet) outcome =
            true) ↔
        ¬Stuck limit s := by
    rw [check_eq_true_iff hLimit, exec_quiet s hDone hQuiet,
      current_after_window hNear (by omega)]
    unfold Stuck
    constructor
    · rintro hAllowed ⟨key, hKey, hNone, hCount⟩
      apply hAllowed key _ hCount
      rw [hKey]
      simp [Option.filter, hNone]
    · intro hNotStuck key hKey hCount
      obtain ⟨hKey, hNone⟩ := Option.filter_eq_some_iff.mp hKey
      exact
        hNotStuck ⟨key, hKey, by simpa using hNone, hCount⟩
  refine ⟨hExact, fun hMeets => hExact.mpr ?_⟩
  rintro ⟨key, hKey, hNone, _⟩
  have hAwaited : Awaited s :=
    Run.invariant_of_meets awaited_step
      (fun _ hKey => nomatch hKey) hMeets
  exact hAwaited key hKey hNone hDone

/- Five calls in a minute, the first with its `EXPIRE`. -/
theorem recovers_full :
    let events : List Event :=
      [ .incr 0 .done, .pass 20, .expire 0 .done, .incr 1 .done,
        .incr 2 .done, .incr 3 .failed, .incr 4 .done,
        .incr 5 .done ]
    let s := Run.exec (step 60000) .initial events
    check 5 s .done = false ∧
      check 5 (Run.exec (step 60000) s [.pass 60001]) .done =
        true := by
  intro events s
  refine ⟨by decide, ?_⟩
  exact
    (recovers 60000 5 (by decide) events [.pass 60001]
      (by decide) (by decide) (by decide)).2 (by decide) .done

/- The same calls, the `EXPIRE` of the first lost. -/
theorem not_recovers_lostExpire :
    let events : List Event :=
      [ .incr 0 .done, .expire 0 .failed, .incr 1 .done,
        .incr 2 .done, .incr 3 .done, .incr 4 .done ]
    let s := Run.exec (step 60000) .initial events
    s.pending = [] ∧
      check 5 (Run.exec (step 60000) s [.pass 60001]) .done =
        false := by
  decide

end Redis

end RateLimit

end SentinelCommand
