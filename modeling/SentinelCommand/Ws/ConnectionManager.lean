import Mathlib.Logic.Function.Basic
import SentinelCommand.Json
import SentinelCommand.Lib.Run

/-
  The connection registry of `ws.rs` and the commands in
  flight over it.

  The manager's operations each run under its lock, so they
  are functions of `ManagerInner`. A `send_command` is a call
  in progress: it registers, then its frame is taken by the
  socket's queue or refused, then it waits on its one-shot
  channel. What the queue and the clock do is the event's
  choice, and so are the ids `Uuid::new_v4` draws. The
  registration counter is a natural number; a 64-bit one
  would take 2^64 connections to wrap.

  Key definitions include:
    * `Ws.ManagerInner`
    * `Ws.connect`, `Ws.disconnect`, `Ws.cancelPending`
    * `Ws.Call`, `Ws.State`
-/

--------------------
-- Why a command has no answer
--------------------

namespace SentinelCommand

namespace Ws

inductive CommandError where
  | notConnected (node : String)
  | sendFailed (node : String)
  | timeout (node command : String)
  | disconnected (node command : String)
  deriving DecidableEq, Repr

/- The text a route answers with. -/
def CommandError.display : CommandError → String
| .notConnected node => "Node " ++ node ++ " is not connected"
| .sendFailed node => "Node " ++ node ++ " send failed"
| .timeout node command =>
    "Command " ++ command ++ " to node " ++ node ++
      " timed out"
| .disconnected node command =>
    "Node " ++ node ++ " disconnected while awaiting " ++
      command

def CommandError.node : CommandError → String
| .notConnected node => node
| .sendFailed node => node
| .timeout node _ => node
| .disconnected node _ => node

--------------------
-- The registry
--------------------

/-
  A registered socket. The sender of its frame queue goes by
  the same id.
-/
structure Connection where
  id : Nat
  deriving DecidableEq, Repr

/-
  A command that waits: the node it went to, and the call
  whose one-shot channel the kept sender belongs to.
-/
structure Pending where
  nodeId : String
  answer : Nat
  deriving DecidableEq, Repr

structure ManagerInner where
  connections : String → Option Connection
  order : List String
  pending : String → Option Pending
  nextId : Nat

/- The handle a receive loop holds. -/
structure Registration where
  nodeId : String
  id : Nat
  deriving DecidableEq, Repr

/- `ManagerInner::default()`. -/
def ManagerInner.default : ManagerInner where
  connections := fun _ => none
  order := []
  pending := fun _ => none
  nextId := 0

def connectedNodes (inner : ManagerInner) : List String :=
  inner.order

def isConnected
    (inner : ManagerInner)
    (nodeId : String) : Bool :=
  (inner.connections nodeId).isSome

/- The senders that go are dropped with their entries. -/
def cancelPending
    (inner : ManagerInner)
    (nodeId : String) : ManagerInner :=
  { inner with
    pending := fun correlationId =>
      (inner.pending correlationId).filter
        (fun pending => pending.nodeId != nodeId) }

/- Only a new key extends the order. -/
def connect
    (inner : ManagerInner)
    (nodeId : String) : ManagerInner × Registration :=
  let id := inner.nextId + 1
  let placed : ManagerInner :=
    { inner with
      nextId := id
      connections :=
        Function.update inner.connections nodeId
          (some { id := id }) }
  (if isConnected inner nodeId then
      cancelPending placed nodeId
    else
      { placed with order := placed.order ++ [nodeId] },
    { nodeId := nodeId, id := id })

def owns
    (inner : ManagerInner)
    (nodeId : String)
    (id : Nat) : Bool :=
  (inner.connections nodeId).any
    (fun existing => existing.id == id)

/- The id guards the entry of a newer socket. -/
def disconnect
    (inner : ManagerInner)
    (nodeId : String)
    (id : Nat) : ManagerInner :=
  if owns inner nodeId id then
    cancelPending
      { inner with
        connections :=
          Function.update inner.connections nodeId none
        order :=
          inner.order.filter
            (fun existing => existing != nodeId) }
      nodeId
  else
    inner

def forgetPending
    (inner : ManagerInner)
    (correlationId : String) : ManagerInner :=
  { inner with
    pending :=
      Function.update inner.pending correlationId none }

--------------------
-- Commands in flight
--------------------

abbrev Outcome : Type :=
  Except CommandError Json

/-
  How far a call has come. One that leaves has its outcome
  and has not dropped its guard yet.
-/
inductive Stage where
  | sending
  | waiting
  | leaving (outcome : Outcome)
  | returned (outcome : Outcome)
  | dropped

def Stage.outcome : Stage → Option Outcome
| .leaving outcome => some outcome
| .returned outcome => some outcome
| _ => none

/-
  A call of `send_command`, with the id of the socket it was
  registered on and what its one-shot channel was sent.
-/
structure Call where
  nodeId : String
  command : String
  payload : Json
  correlationId : String
  connectionId : Option Nat
  answer : Option Json
  stage : Stage

def Call.outcome (call : Call) : Option Outcome :=
  call.stage.outcome

/- The frame on the wire. -/
def Call.frame (call : Call) : Json :=
  .object
    [("type", .string "command"),
      ("id", .string call.correlationId),
      ("command", .string call.command),
      ("payload", call.payload)]

/-
  The manager, the calls so far, and the frames put in the
  queues of sockets.
-/
structure State where
  inner : ManagerInner
  calls : List Call
  written : List (Nat × Json)

def initial : State where
  inner := ManagerInner.default
  calls := []
  written := []

/-
  Is the sender of the call's channel still in the map? It
  is only ever put there under the call's own id.
-/
def senderHeld
    (inner : ManagerInner)
    (k : Nat)
    (call : Call) : Bool :=
  (inner.pending call.correlationId).any
    (fun pending => pending.answer == k)

def State.setStage
    (s : State)
    (k : Nat)
    (call : Call)
    (stage : Stage) : State :=
  { s with
    calls := s.calls.set k { call with stage := stage } }

/-
  The first part of `send_command`, under the lock. Without a
  connection the call returns at once.
-/
def sendCommand
    (s : State)
    (correlationId nodeId command : String)
    (payload : Json) : State :=
  match s.inner.connections nodeId with
  | none =>
      { s with
        calls := s.calls ++
          [{ nodeId := nodeId
             command := command
             payload := payload
             correlationId := correlationId
             connectionId := none
             answer := none
             stage :=
               .returned (.error (.notConnected nodeId)) }] }
  | some connection =>
      { s with
        inner :=
          { s.inner with
            pending :=
              Function.update s.inner.pending correlationId
                (some
                  { nodeId := nodeId
                    answer := s.calls.length }) }
        calls := s.calls ++
          [{ nodeId := nodeId
             command := command
             payload := payload
             correlationId := correlationId
             connectionId := some connection.id
             answer := none
             stage := .sending }] }

/- The queue of the socket took the frame. -/
def sent
    (s : State)
    (k : Nat)
    (call : Call) : State :=
  match call.stage, call.connectionId with
  | .sending, some id =>
      { s.setStage k call .waiting with
        written := s.written ++ [(id, call.frame)] }
  | _, _ => s

/- The queue was closed: the socket by that id goes. -/
def sendFailed
    (s : State)
    (k : Nat)
    (call : Call) : State :=
  match call.stage, call.connectionId with
  | .sending, some id =>
      { s.setStage k call
          (.leaving (.error (.sendFailed call.nodeId))) with
        inner := disconnect s.inner call.nodeId id }
  | _, _ => s

/- The deadline, during the send or during the wait. -/
def expired
    (s : State)
    (k : Nat)
    (call : Call) : State :=
  let timedOut :=
    s.setStage k call
      (.leaving (.error (.timeout call.nodeId call.command)))
  match call.stage with
  | .sending => timedOut
  | .waiting => timedOut
  | _ => s

/- The wait ends when the channel has a value or is closed. -/
def received
    (s : State)
    (k : Nat)
    (call : Call) : State :=
  match call.stage, call.answer with
  | .waiting, some value =>
      s.setStage k call (.leaving (.ok value))
  | .waiting, none =>
      if senderHeld s.inner k call then s else
        s.setStage k call
          (.leaving
            (.error
              (.disconnected call.nodeId call.command)))
  | _, _ => s

/- `PendingGuard::drop`, on the way out. -/
def leave
    (s : State)
    (k : Nat)
    (call : Call) : State :=
  match call.stage with
  | .leaving outcome =>
      { s.setStage k call (.returned outcome) with
        inner := forgetPending s.inner call.correlationId }
  | _ => s

/- `PendingGuard::drop`, when the caller went away. -/
def dropped
    (s : State)
    (k : Nat)
    (call : Call) : State :=
  let forgotten : State :=
    { s.setStage k call .dropped with
      inner := forgetPending s.inner call.correlationId }
  match call.stage with
  | .sending => forgotten
  | .waiting => forgotten
  | _ => s

/- Only the node the command went to can answer it. -/
def resolveCommand
    (s : State)
    (correlationId nodeId : String)
    (result : Json) : State :=
  match s.inner.pending correlationId with
  | none => s
  | some pending =>
      if pending.nodeId = nodeId then
        { s with
          inner := forgetPending s.inner correlationId
          calls :=
            s.calls.modify pending.answer
              (fun call =>
                { call with answer := some result }) }
      else
        s

/- What happens to a call after its first part. -/
inductive Turn where
  | sent
  | sendFailed
  | expired
  | received
  | leave
  | dropped
  deriving DecidableEq, Repr

inductive Event where
  | connect (nodeId : String)
  | disconnect (nodeId : String) (id : Nat)
  | sendCommand
      (correlationId nodeId command : String)
      (payload : Json)
  | turn (k : Nat) (turn : Turn)
  | resolveCommand
      (correlationId nodeId : String)
      (result : Json)

def takeTurn
    (s : State)
    (k : Nat)
    (call : Call) : Turn → State
| .sent => sent s k call
| .sendFailed => sendFailed s k call
| .expired => expired s k call
| .received => received s k call
| .leave => leave s k call
| .dropped => dropped s k call

def step (s : State) : Event → State
| .connect nodeId =>
    { s with inner := (connect s.inner nodeId).1 }
| .disconnect nodeId id =>
    { s with inner := disconnect s.inner nodeId id }
| .sendCommand correlationId nodeId command payload =>
    sendCommand s correlationId nodeId command payload
| .turn k turn =>
    match s.calls[k]? with
    | none => s
    | some call => takeTurn s k call turn
| .resolveCommand correlationId nodeId result =>
    resolveCommand s correlationId nodeId result

end Ws

end SentinelCommand
