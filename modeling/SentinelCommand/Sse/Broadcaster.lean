import Mathlib.Logic.Function.Basic
import SentinelCommand.Lib.Run

/-
  The broadcasters of `sse.rs`.

  Subscribers are grouped by org, and each has a bounded
  channel that goes by the subscriber's id. Every operation
  runs under the broadcaster's lock, except that a stream
  takes from its own channel. An org without an entry in the
  map has the empty list.

  Key definitions include:
    * `Sse.Inner`, `Sse.Channel`, `Sse.Subscription`
    * `Sse.subscribe`, `Sse.notify`, `Sse.unsubscribe`
    * `Sse.recv`, `Sse.drop`, `Sse.clear`
-/

--------------------
-- Channels
--------------------

namespace SentinelCommand

namespace Sse

/- `QUEUE_DEPTH`. -/
def queueDepth : Nat := 100

/- A bounded channel; it is closed when its receiver is gone. -/
structure Channel where
  queue : List String
  closed : Bool
  deriving DecidableEq, Repr

inductive TrySend where
  | ok
  | full
  | closed
  deriving DecidableEq, Repr

/- `mpsc::channel(QUEUE_DEPTH)`. -/
def Channel.new : Channel where
  queue := []
  closed := false

def Channel.trySend
    (channel : Channel)
    (payload : String) : TrySend × Channel :=
  if channel.closed then
    (.closed, channel)
  else if channel.queue.length < queueDepth then
    (.ok, { channel with queue := channel.queue ++ [payload] })
  else
    (.full, channel)

/- The receiver goes, and what it had not taken with it. -/
def Channel.close (channel : Channel) : Channel :=
  { channel with queue := [], closed := true }

--------------------
-- The Broadcaster
--------------------

/- Holds the sender of the channel by its id. -/
structure Subscriber where
  id : Nat
  isAdmin : Bool
  deriving DecidableEq, Repr

structure Inner where
  subscribers : String → List Subscriber
  nextId : Nat

/-
  A subscription's receiving end. Beside what the source
  keeps: what it was made with, what `recv` has handed out,
  whether `recv` has answered `None`, and whether it was
  dropped.
-/
structure Subscription where
  orgId : String
  id : Nat
  isAdmin : Bool
  received : List String
  ended : Bool
  dropped : Bool
  deriving DecidableEq, Repr

/-
  The broadcaster, the channels, and each org's
  subscriptions in the order they were made.
-/
structure State where
  inner : Inner
  channels : Nat → Channel
  subscriptions : String → List Subscription

def initial : State where
  inner := { subscribers := fun _ => [], nextId := 0 }
  channels := fun _ => Channel.new
  subscriptions := fun _ => []

/- An org that is at its cap is refused. -/
def subscribe
    (s : State)
    (orgId : String)
    (isAdmin : Bool)
    (cap : Nat) : State :=
  let existing := s.inner.subscribers orgId
  if existing.length ≥ cap then
    s
  else
    let id := s.inner.nextId + 1
    { inner :=
        { subscribers :=
            Function.update s.inner.subscribers orgId
              (existing ++ [{ id := id, isAdmin := isAdmin }])
          nextId := id }
      channels := Function.update s.channels id Channel.new
      subscriptions :=
        Function.update s.subscriptions orgId
          (s.subscriptions orgId ++
            [{ orgId := orgId
               id := id
               isAdmin := isAdmin
               received := []
               ended := false
               dropped := false }]) }

/- May a subscriber see an event for this audience? -/
def maySee (isAdmin : Bool) (audience : String) : Bool :=
  !(audience == "admin" && !isAdmin)

/-
  The `retain` of `notify`: only a full queue costs a
  subscriber its place.
-/
def fanOut
    (audience payload : String) :
    List Subscriber → (Nat → Channel) →
      List Subscriber × (Nat → Channel)
| [], channels => ([], channels)
| subscriber :: rest, channels =>
    if maySee subscriber.isAdmin audience then
      let sent := (channels subscriber.id).trySend payload
      let others :=
        fanOut audience payload rest
          (Function.update channels subscriber.id sent.2)
      if sent.1 = .full then
        others
      else
        (subscriber :: others.1, others.2)
    else
      let others := fanOut audience payload rest channels
      (subscriber :: others.1, others.2)

def notify
    (s : State)
    (orgId audience payload : String) : State :=
  let fanned :=
    fanOut audience payload (s.inner.subscribers orgId)
      s.channels
  { s with
    inner :=
      { s.inner with
        subscribers :=
          Function.update s.inner.subscribers orgId fanned.1 }
    channels := fanned.2 }

def unsubscribe
    (inner : Inner)
    (orgId : String)
    (id : Nat) : Inner :=
  { inner with
    subscribers :=
      Function.update inner.subscribers orgId
        ((inner.subscribers orgId).filter
          (fun subscriber => subscriber.id != id)) }

/- The broadcaster still holds the sender of the channel. -/
def isLive
    (s : State)
    (orgId : String)
    (id : Nat) : Bool :=
  (s.inner.subscribers orgId).any
    (fun subscriber => subscriber.id == id)

def State.setSubscription
    (s : State)
    (orgId : String)
    (n : Nat)
    (subscription : Subscription) : State :=
  { s with
    subscriptions :=
      Function.update s.subscriptions orgId
        ((s.subscriptions orgId).set n subscription) }

/-
  The next event, or `None` when there is none and no sender
  is left. Otherwise the stream waits.
-/
def recv
    (s : State)
    (orgId : String)
    (n : Nat)
    (subscription : Subscription) : State :=
  let channel := s.channels subscription.id
  if subscription.dropped then
    s
  else
    match channel.queue with
    | payload :: rest =>
        { s.setSubscription orgId n
            { subscription with
              received := subscription.received ++ [payload] }
          with
          channels :=
            Function.update s.channels subscription.id
              { channel with queue := rest } }
    | [] =>
        if isLive s orgId subscription.id then s else
          s.setSubscription orgId n
            { subscription with ended := true }

/- `Drop for Subscription`, then the receiver's own. -/
def drop
    (s : State)
    (orgId : String)
    (n : Nat)
    (subscription : Subscription) : State :=
  { s.setSubscription orgId n
      { subscription with dropped := true } with
    inner := unsubscribe s.inner orgId subscription.id
    channels :=
      Function.update s.channels subscription.id
        (s.channels subscription.id).close }

def clear (s : State) : State :=
  { s with
    inner := { s.inner with subscribers := fun _ => [] } }

/-
  Streams are named by their org and their place among its
  subscriptions.
-/
inductive Event where
  | subscribe (orgId : String) (isAdmin : Bool) (cap : Nat)
  | notify (orgId audience payload : String)
  | recv (orgId : String) (n : Nat)
  | drop (orgId : String) (n : Nat)
  | clear
  deriving DecidableEq, Repr

def step (s : State) : Event → State
| .subscribe orgId isAdmin cap =>
    subscribe s orgId isAdmin cap
| .notify orgId audience payload =>
    notify s orgId audience payload
| .recv orgId n =>
    match (s.subscriptions orgId)[n]? with
    | none => s
    | some subscription => recv s orgId n subscription
| .drop orgId n =>
    match (s.subscriptions orgId)[n]? with
    | none => s
    | some subscription => drop s orgId n subscription
| .clear => clear s

end Sse

end SentinelCommand
