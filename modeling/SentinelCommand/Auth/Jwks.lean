import SentinelCommand.Clock
import SentinelCommand.Lib.Calls

/-
  The cache of Clerk's signing keys: `key_for`, the refresh
  behind it, and the lock that a fetch holds.

  A call that does not find its key refreshes the set. The
  refresh takes a set younger than the rate limit for fresh
  without a fetch, whoever fetched it and whenever the call
  began.

  Key definitions include:
    * `Jwks.keysOf`
    * `Jwks.KeyCall`, `Jwks.program`
-/

--------------------
-- Key Sets
--------------------

namespace SentinelCommand

namespace Jwks

def refreshAfter : Int :=
  seconds 300

def minForcedRefreshInterval : Int :=
  seconds 10

structure Jwk where
  kid : String
  kty : String
  alg : Option String
  n : Option String
  e : Option String
  deriving DecidableEq, Repr

inductive JwksError where
  | unknownKey (kid : String)
  | fetch (message : String)
  | rateLimited
  deriving DecidableEq, Repr

/- A set of keys; the last inserted is first. -/
abbrev KeySet (Key : Type) : Type :=
  List (String × Key)

variable {Key : Type}

/- The key of a JWK, when it is an RSA key for RS256. -/
def usable
    (fromRsaComponents : String → String → Option Key)
    (jwk : Jwk) : Option Key :=
  if jwk.kty ≠ "RSA" then
    none
  else if jwk.alg.any (· ≠ "RS256") then
    none
  else
    match jwk.n, jwk.e with
    | some n, some e => fromRsaComponents n e
    | _, _ => none

/- The loop of `refresh` over the keys of an answer. -/
def keysOf
    (fromRsaComponents : String → String → Option Key)
    (jwks : List Jwk) : KeySet Key :=
  jwks.foldl
    (fun keys jwk =>
      match usable fromRsaComponents jwk with
      | some key => (jwk.kid, key) :: keys
      | none => keys)
    []

--------------------
-- Calls
--------------------

structure Cached (Key : Type) where
  keys : KeySet Key
  fetchedAt : Int

/-
  The clock and what the cache shares: the set it holds, the
  instant under the fetch lock, whether a fetch holds the
  lock, and the background tasks yet to run. Beside them
  every set that was fetched and every instant a fetch
  began, the newest first.
-/
structure Shared (Key : Type) where
  now : Int
  cached : Option (Cached Key)
  lastFetch : Int
  locked : Bool
  spawned : Nat
  fetched : List (KeySet Key)
  fetches : List Int

/- Who waits for a refresh; `since` counts the sets fetched
  before a call began. -/
inductive Purpose where
  | keyFor (kid : String) (since : Nat)
  | behind
  deriving DecidableEq, Repr

inductive Stage (Key : Type) where
  | locking
  | fetching
  | refreshed (result : Except JwksError Unit)
  | answered (result : Except JwksError Key)
  | done
  | dropped

structure KeyCall (Key : Type) where
  purpose : Purpose
  stage : Stage Key

/-
  `refreshBehind` is a spawned task of
  `refresh_in_background` that gets to run, and `warm` an
  attempt of the start-up loop.
-/
inductive Start where
  | keyFor (kid : String)
  | refreshBehind
  | warm
  | tick (elapsed : Nat)
  deriving DecidableEq, Repr

/-
  A call takes its next part, Clerk answers it, or its
  future is dropped.
-/
inductive Reply where
  | go
  | answer (jwks : Except String (List Jwk))
  | drop

def Shared.held
    (s : Shared Key)
    (kid : String) : Option Key :=
  s.cached.bind (fun cached => cached.keys.lookup kid)

/- The set is young enough to need no refresh. -/
def Shared.isFresh (s : Shared Key) : Bool :=
  s.cached.any
    (fun cached => s.now - cached.fetchedAt < refreshAfter)

/-
  A key that is held is returned at once, and when the set
  is stale a task is spawned that refreshes it behind the
  call.
-/
def begin
    (s : Shared Key) : Start → Shared Key × Option (KeyCall Key)
| .keyFor kid =>
    let purpose : Purpose := .keyFor kid s.fetched.length
    match s.held kid with
    | some key =>
        (if s.isFresh then
            s
          else
            { s with spawned := s.spawned + 1 },
          some
            { purpose := purpose
              stage := .answered (.ok key) })
    | none =>
        (s, some { purpose := purpose, stage := .locking })
| .refreshBehind =>
    if s.spawned = 0 then
      (s, none)
    else if s.locked then
      -- `try_lock` says that someone is already fetching.
      ({ s with spawned := s.spawned - 1 }, none)
    else
      ({ s with spawned := s.spawned - 1 },
        some { purpose := .behind, stage := .locking })
| .warm => (s, some { purpose := .behind, stage := .locking })
| .tick elapsed => ({ s with now := s.now + elapsed }, none)

/- `refresh`, once it has the lock. -/
def lockedRefresh
    (s : Shared Key) : Shared Key × Stage Key :=
  if s.cached.any
      (fun cached =>
        s.now - cached.fetchedAt < minForcedRefreshInterval)
  then
    (s, .refreshed (.ok ()))
  else if s.now - s.lastFetch < minForcedRefreshInterval then
    (s, .refreshed (.error .rateLimited))
  else
    ({ s with
        lastFetch := s.now
        locked := true
        fetches := s.now :: s.fetches },
      .fetching)

/- Clerk has answered; the lock is let go in any case. -/
def finishFetch
    (fromRsaComponents : String → String → Option Key)
    (s : Shared Key)
    (answer : Except String (List Jwk)) :
    Shared Key × Stage Key :=
  match answer with
  | .error message =>
      ({ s with locked := false },
        .refreshed (.error (.fetch message)))
  | .ok jwks =>
      if (keysOf fromRsaComponents jwks).isEmpty then
        ({ s with locked := false },
          .refreshed
            (.error
              (.fetch "jwks contained no usable RSA keys")))
      else
        ({ s with
            locked := false
            cached :=
              some
                { keys := keysOf fromRsaComponents jwks
                  fetchedAt := s.now }
            fetched :=
              keysOf fromRsaComponents jwks :: s.fetched },
          .refreshed (.ok ()))

/- What the call makes of the refresh. -/
def afterRefresh
    (s : Shared Key)
    (purpose : Purpose)
    (result : Except JwksError Unit) : Stage Key :=
  match purpose with
  | .behind => .done
  | .keyFor kid _ =>
      match s.held kid, result with
      | some key, _ => .answered (.ok key)
      | none, .ok _ => .answered (.error (.unknownKey kid))
      | none, .error err => .answered (.error err)

def resume
    (fromRsaComponents : String → String → Option Key)
    (s : Shared Key)
    (call : KeyCall Key)
    (reply : Reply) : Shared Key × KeyCall Key :=
  let go (next : Shared Key × Stage Key) :
      Shared Key × KeyCall Key :=
    (next.1, { call with stage := next.2 })
  match call.stage, reply with
  | .locking, .go =>
      if s.locked then (s, call) else go (lockedRefresh s)
  | .locking, .drop => go (s, .dropped)
  | .fetching, .answer jwks =>
      go (finishFetch fromRsaComponents s jwks)
  | .fetching, .drop =>
      go ({ s with locked := false }, .dropped)
  | .refreshed result, .go =>
      go (s, afterRefresh s call.purpose result)
  | .refreshed _, .drop => go (s, .dropped)
  | _, _ => (s, call)

def program
    (fromRsaComponents : String → String → Option Key) :
    Calls.Program (Shared Key) (KeyCall Key) Start Reply where
  begin := begin
  resume := resume fromRsaComponents

abbrev Config (Key : Type) : Type :=
  Calls.Config (Shared Key) (KeyCall Key)

abbrev Event : Type :=
  Calls.Event Start Reply

def step
    (fromRsaComponents : String → String → Option Key) :
    Config Key → Event → Config Key :=
  Calls.step (program fromRsaComponents)

/-
  `JwksCache::new`: the first fetch is not held back, unless
  the machine has been up for less than the interval.
-/
def newCache (now : Int) (upLongEnough : Bool) : Config Key :=
  Calls.initial
    { now := now
      cached := none
      lastFetch :=
        if upLongEnough then
          now - minForcedRefreshInterval
        else
          now
      locked := false
      spawned := 0
      fetched := []
      fetches := [] }

end Jwks

end SentinelCommand
