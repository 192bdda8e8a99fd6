import SentinelCommand.Clock
import SentinelCommand.Lib.Interleaving

/-
  The life of one row of `sentinel_runs`, as threads: its
  insertion, the agent's `/start` and `/complete` requests
  and the sweeps of the reaper.

  A statement is one action, an `UPDATE` with the `WHERE` it
  re-checks. A request whose statement fails does nothing
  further, which a thread that is not resumed also covers.

  Key definitions include:
    * `Sentinel.SentinelRunRow`
    * `Sentinel.RunState`
    * `Sentinel.postRunStart`
-/

--------------------
-- Rows
--------------------

namespace SentinelCommand

namespace Sentinel

open Interleaving

inductive Outcome where
  | pending
  | running
  | incident
  | noAction
  | error
  deriving DecidableEq, Repr

structure SentinelRunRow where
  id : String
  orgId : String
  triggeredAt : Int
  triggerType : String
  cameraId : Option String
  toolCallCount : Int
  outcome : Outcome
  severity : Option String
  incidentId : Option Int
  startedAt : Option Int
  completedAt : Option Int
  manualPrompt : Option String
  summary : String
  toolTrace : Option String
  updatedAt : Int
  deriving DecidableEq, Repr

/- The names of `TERMINAL`. -/
def terminal : String → Option Outcome
| "incident" => some .incident
| "no_action" => some .noAction
| "error" => some .error
| _ => none

def Outcome.isTerminal : Outcome → Bool
| .pending => false
| .running => false
| .incident => true
| .noAction => true
| .error => true

/- The one-way upgrade out of the reaper's stamp. -/
def upgrading (stored reported : Outcome) : Bool :=
  stored == .error &&
    (reported == .incident || reported == .noAction)

/- `AgentPrincipal`. -/
structure AgentPrincipal where
  orgId : Option String
  isScoped : Bool
  deriving DecidableEq, Repr

structure ApiError where
  status : Nat
  detail : String
  deriving DecidableEq, Repr

/- A row as JSON, and whether the caller won the claim. -/
structure RunAnswer where
  row : SentinelRunRow
  includeTrace : Bool
  claimed : Option Bool
  deriving DecidableEq, Repr

structure ReaperSummary where
  reaped : Nat
  ids : List String
  rewokenPending : Nat
  abandoned : Nat
  deriving DecidableEq, Repr

/-
  The row, once it is committed, and what the requests and
  the sweeps answered. The note `winner` is the request whose
  `UPDATE` found the row pending.
-/
structure RunState where
  row : Option SentinelRunRow
  clock : Int
  answers : List (Nat × Except ApiError RunAnswer)
  sweeps : List ReaperSummary
  winner : Option Nat

/- Before the row is inserted. -/
def RunState.initial (clock : Int) : RunState where
  row := none
  clock := clock
  answers := []
  sweeps := []
  winner := none

abbrev RunThread : Type :=
  Thread RunState Unit

variable {α : Type}

def get
    (f : RunState → α)
    (next : α → RunThread) : RunThread :=
  atomic () (fun s => (s, f s)) next

def readClock (next : Int → RunThread) : RunThread :=
  get RunState.clock next

/- Note the answer of a request. -/
def RunState.answer
    (s : RunState)
    (request : Nat)
    (answer : Except ApiError RunAnswer) : RunState :=
  { s with answers := s.answers ++ [(request, answer)] }

def finish
    (request : Nat)
    (answer : RunState → Except ApiError RunAnswer) :
    RunThread :=
  atomic ()
    (fun s => (s.answer request (answer s), ()))
    (fun _ => .done)

/- `agent_visible_run`: a foreign run is not found. -/
def agentVisibleRun
    (agent : AgentPrincipal)
    (s : RunState) : Except ApiError SentinelRunRow :=
  match s.row with
  | none => .error ⟨404, "run not found"⟩
  | some row =>
      if agent.isScoped && !(agent.orgId == some row.orgId) then
        .error ⟨404, "run not found"⟩
      else
        .ok row

/- `reload`, for an answer. -/
def reload
    (includeTrace : Bool)
    (claimed : Option Bool)
    (s : RunState) : Except ApiError RunAnswer :=
  match s.row with
  | none => .error ⟨500, "Internal Server Error"⟩
  | some row => .ok ⟨row, includeTrace, claimed⟩

/-
  An `UPDATE` of the row where `keeps` still holds, and the
  rows it affected.
-/
def updateWhere
    (keeps : SentinelRunRow → Bool)
    (set : SentinelRunRow → SentinelRunRow)
    (s : RunState) : RunState × Nat :=
  match s.row with
  | none => (s, 0)
  | some row =>
      if keeps row then
        ({ s with row := some (set row) }, 1)
      else
        (s, 0)

/- What `insert_run` and the manual route bind. -/
structure NewRun where
  id : String
  orgId : String
  triggerType : String
  cameraId : Option String
  manualPrompt : Option String
  deriving DecidableEq, Repr

def NewRun.row
    (run : NewRun)
    (triggeredAt : Int) : SentinelRunRow where
  id := run.id
  orgId := run.orgId
  triggeredAt := triggeredAt
  triggerType := run.triggerType
  cameraId := run.cameraId
  toolCallCount := 0
  outcome := .pending
  severity := none
  incidentId := none
  startedAt := none
  completedAt := none
  manualPrompt := run.manualPrompt
  summary := ""
  toolTrace := none
  updatedAt := triggeredAt

/-
  The row becomes visible when its transaction commits. A
  second insertion violates the primary key.
-/
def commitRow
    (row : SentinelRunRow)
    (s : RunState) : RunState :=
  match s.row with
  | none => { s with row := some row }
  | some _ => s

def insertRun (run : NewRun) : RunThread :=
  readClock (fun triggeredAt =>
    atomic ()
      (fun s => (commitRow (run.row triggeredAt) s, ()))
      (fun _ => .done))

--------------------
-- Requests of the Agent
--------------------

/- The claim is the `UPDATE`, not the check above it. -/
def claimRun
    (request : Nat)
    (started : Int)
    (s : RunState) : RunState × Bool :=
  match
    updateWhere (fun row => row.outcome == .pending)
      (fun row =>
        { row with
          outcome := .running
          startedAt := some started
          updatedAt := started }) s with
  | (after, affected) =>
      if affected == 1 then
        ({ after with winner := some request }, true)
      else
        (after, false)

def postRunStart
    (agent : AgentPrincipal)
    (request : Nat) : RunThread :=
  get (agentVisibleRun agent) (fun
    | .error err => finish request (fun _ => .error err)
    | .ok row =>
        if row.outcome != .pending then
          finish request
            (fun _ => .ok ⟨row, false, some false⟩)
        else
          readClock (fun started =>
            atomic () (claimRun request started) (fun won =>
              finish request (reload false (some won)))))

/-
  A body of `/complete` that parsed. The trace is the text
  that is stored of it.
-/
structure CompleteBody where
  outcome : String
  severity : Option String
  incidentId : Option Int
  summary : String
  toolCallCount : Int
  toolTrace : Option String
  deriving DecidableEq, Repr

def pythonEscape (quote : Char) (c : Char) : List Char :=
  if c == '\\' then ['\\', '\\']
  else if c == '\n' then ['\\', 'n']
  else if c == '\r' then ['\\', 'r']
  else if c == '\t' then ['\\', 't']
  else if c == quote then ['\\', c]
  else [c]

/- `repr()` of a Python string. -/
def pythonRepr (text : String) : String :=
  let hasSingle := text.toList.contains '\''
  let hasDouble := text.toList.contains '"'
  let quote := if hasSingle && !hasDouble then '"' else '\''
  String.ofList
    (quote :: text.toList.flatMap (pythonEscape quote) ++
      [quote])

def severityNamed : Option String → Bool
| some "low" => true
| some "medium" => true
| some "high" => true
| some "critical" => true
| _ => false

/- The checks made before the row is read. -/
def CompleteBody.check
    (body : CompleteBody) : Except ApiError Outcome :=
  match terminal body.outcome with
  | none =>
      .error
        ⟨400, "invalid outcome: " ++ pythonRepr body.outcome⟩
  | some outcome =>
      if outcome == .incident &&
          !severityNamed body.severity then
        .error ⟨400, "severity required for outcome=incident"⟩
      else
        .ok outcome

def int4 (value : Int) : Except ApiError Int :=
  if -2147483648 ≤ value ∧ value ≤ 2147483647 then
    .ok value
  else
    .error
      ⟨422, "Input should be between -2147483648 and 2147483647"⟩

/- `i32::try_from` of a count clamped at zero. -/
def toolCallBind (count : Int) : Except ApiError Int :=
  if count ≤ 2147483647 then
    .ok (max 0 count)
  else
    .error ⟨422, "tool_call_count is out of range"⟩

def truncateChars (text : String) (limit : Nat) : String :=
  String.ofList (text.toList.take limit)

/- The condition of the final `UPDATE`. -/
def mayComplete
    (outcome : Outcome)
    (row : SentinelRunRow) : Bool :=
  !row.outcome.isTerminal || upgrading row.outcome outcome

def completeRow
    (body : CompleteBody)
    (outcome : Outcome)
    (incidentId : Option Int)
    (toolCallCount : Int)
    (now : Int)
    (row : SentinelRunRow) : SentinelRunRow :=
  { row with
    outcome := outcome
    severity :=
      if outcome == .incident then body.severity else none
    incidentId := incidentId
    summary := truncateChars body.summary 8000
    toolCallCount := toolCallCount
    toolTrace := body.toolTrace.or row.toolTrace
    startedAt := some (row.startedAt.getD now)
    completedAt := some now
    updatedAt := now }

/-
  The id that is stored with an incident. `owned` is what the
  ownership query finds.
-/
def checkIncident
    (owned : Int → Bool)
    (outcome : Outcome)
    (incidentId : Option Int) :
    Except ApiError (Option Int) :=
  if outcome == .incident then
    match incidentId with
    | none => .ok none
    | some id =>
        match int4 id with
        | .error err => .error err
        | .ok id =>
            if owned id then
              .ok (some id)
            else
              .error
                ⟨400,
                  "incident_id does not belong to this run's org"⟩
  else
    .ok none

/- From the terminal check on. -/
def storeCompletion
    (body : CompleteBody)
    (outcome : Outcome)
    (owned : Int → Bool)
    (request : Nat)
    (row : SentinelRunRow) : RunThread :=
  if row.outcome.isTerminal &&
      !upgrading row.outcome outcome then
    finish request (fun _ => .ok ⟨row, true, none⟩)
  else
    match checkIncident owned outcome body.incidentId with
    | .error err => finish request (fun _ => .error err)
    | .ok incidentId =>
        readClock (fun now =>
          match toolCallBind body.toolCallCount with
          | .error err => finish request (fun _ => .error err)
          | .ok count =>
              atomic ()
                (updateWhere (mayComplete outcome)
                  (completeRow body outcome incidentId count
                    now))
                (fun _ => finish request (reload true none)))

/- The ownership query follows the read of the row. -/
def postRunComplete
    (agent : AgentPrincipal)
    (body : CompleteBody)
    (owned : Int → Bool)
    (request : Nat) : RunThread :=
  match body.check with
  | .error err => finish request (fun _ => .error err)
  | .ok outcome =>
      get (agentVisibleRun agent) (fun
        | .error err => finish request (fun _ => .error err)
        | .ok row =>
            storeCompletion body outcome owned request row)

def strandedRunAgeMinutes : Int := 20

def stalePendingMinutes : Int := 2

def abandonedPendingHours : Int := 6

def strandedSummary : String :=
  "Stranded — agent never completed within 20 min.  " ++
    "Reaped automatically."

def abandonedSummary : String :=
  "Abandoned — agent never claimed this run within 6 hours " ++
    "(wakeup webhook unreachable?).  Marked errored " ++
    "automatically."

def stranded (cutoff : Int) (row : SentinelRunRow) : Bool :=
  row.outcome == .running &&
    row.startedAt.any (fun started => started < cutoff)

def pendingBefore
    (cutoff : Int)
    (row : SentinelRunRow) : Bool :=
  row.outcome == .pending && decide (row.triggeredAt < cutoff)

def stampError
    (summary : String)
    (now : Int)
    (row : SentinelRunRow) : SentinelRunRow :=
  { row with
    outcome := .error
    summary := summary
    completedAt := some now
    updatedAt := now }

/- The stamp re-checks that the row is still running. -/
def reapSelected
    (now : Int)
    (ids : List String)
    (next : Nat → RunThread) : RunThread :=
  if ids.isEmpty then
    next 0
  else
    atomic ()
      (updateWhere
        (fun row =>
          ids.contains row.id && row.outcome == .running)
        (stampError strandedSummary now))
      next

/- The three sweeps, in order. -/
def reapStrandedRuns : RunThread :=
  readClock (fun now =>
    get
      (fun s =>
        (s.row.toList.filter
          (stranded (now - minutes strandedRunAgeMinutes))).map
            SentinelRunRow.id)
      (fun ids =>
        reapSelected now ids (fun reaped =>
          get
            (fun s =>
              (s.row.toList.filter
                (pendingBefore
                  (now - minutes stalePendingMinutes))).length)
            (fun rewoken =>
              atomic ()
                (updateWhere
                  (pendingBefore
                    (now - hours abandonedPendingHours))
                  (stampError abandonedSummary now))
                (fun abandoned =>
                  atomic ()
                    (fun s =>
                      ({ s with
                          sweeps :=
                            s.sweeps ++
                              [⟨reaped, ids, rewoken,
                                abandoned⟩] },
                        ()))
                    (fun _ => .done))))))

inductive RunTask where
  | pass (span : Nat)
  | insert (run : NewRun)
  | start (agent : AgentPrincipal)
  | complete
      (agent : AgentPrincipal)
      (body : CompleteBody)
      (owned : Int → Bool)
  | reap

def startRunTask : RunTask → Nat → RunThread
| .pass span, _ =>
    atomic ()
      (fun s => ({ s with clock := s.clock + span }, ()))
      (fun _ => .done)
| .insert run, _ => insertRun run
| .start agent, request => postRunStart agent request
| .complete agent body owned, request =>
    postRunComplete agent body owned request
| .reap, _ => reapStrandedRuns

/- The state a run of events ends in. -/
def afterEvents
    (clock : Int)
    (events : List (Event RunTask)) : RunState :=
  (Run.exec (step startRunTask)
    (initial (RunState.initial clock)) events).shared

end Sentinel

end SentinelCommand
