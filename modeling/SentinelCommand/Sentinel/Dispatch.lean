import SentinelCommand.Json
import SentinelCommand.Lib.Calendar
import SentinelCommand.Sentinel.RunThreads

/-
  How a run is queued: the dispatch of a notification and the
  manual "Run now", as threads over the committed rows of
  `sentinel_runs` and the advisory locks.

  A statement is one action, and so is each reading of the
  clock. Rows are seen when their transaction commits, and a
  transaction sees its own. Whether a statement succeeds is
  given with the request.

  Key definitions include:
    * `Sentinel.Fleet`
    * `Sentinel.canDispatchForKind`
    * `Sentinel.commitRunWithCapCheck`
-/

--------------------
-- Rows and Answers
--------------------

namespace SentinelCommand

namespace Sentinel

open Interleaving

/- The columns of `sentinel_config` that dispatch reads. -/
structure ConfigRow where
  enabled : Bool
  motionEnabled : Bool
  incidentOpenedEnabled : Bool
  motionCooldownMin : Int
  scheduleMode : String
  cameraScope : Fields

/-
  What is the same for every request: the deployment's
  switches, the rows and plans of the organizations, the
  windows of their schedules and the hash of lock keys.
-/
structure DispatchEnv where
  sentinelDispatchEnabled : Bool
  sentinelGlobalMonthlyRunCap : Int
  configs : String → Option ConfigRow
  effectivePlanForCaps : String → String
  sentinelBlockedByLicense : String → Bool
  scheduleWindow : String → Int → Bool
  hashtext : String → Int

/- Which statements of a request succeed. -/
structure Lookups where
  globalCounted : Bool
  configRead : Bool
  cooldownRead : Bool
  usedRead : Bool
  locked : Bool
  inserted : Bool
  recounted : Bool
  committed : Bool
  deriving DecidableEq, Repr

def Lookups.allOk : Lookups :=
  ⟨true, true, true, true, true, true, true, true⟩

inductive Refusal where
  | sentinelDisabled
  | planNotEligible
  | licenseRequired
  | kindNotATrigger
  | triggerOff (field : String)
  | cameraOutOfScope
  | outsideScheduleWindow
  | motionCooldownActive
  | monthlyCapReached
  | lookupFailed
  deriving DecidableEq, Repr

/- What the manual route answers when it queues no run. -/
inductive ManualRefusal where
  | planRequired
  | licenseRequired
  | dispatchDisabled
  | sentinelOff
  | monthlyCapReached (cap : Int) (used : Nat)
  | failed
  deriving DecidableEq, Repr

/- What a request ends with. -/
inductive DispatchAnswer where
  | notified (run : Option String)
  | manual (answer : Except ManualRefusal String)

/- The check of the fleet ceiling a request passed. -/
structure FleetCheck where
  since : Int
  seen : Nat
  headroom : Int
  deriving DecidableEq, Repr

/-
  What a request knows when it commits: its row, the start of
  the month its recount read, and how many rows there were
  when it passed the fleet ceiling and the cooldown.
-/
structure CommitNote where
  row : SentinelRunRow
  recountSince : Int
  fleet : Option FleetCheck
  cooldownSeen : Option Nat
  deriving DecidableEq, Repr

inductive DispatchLabel where
  | free
  | commit (note : CommitNote)

/- The locks are keyed by hash, with the request that holds. -/
structure Fleet where
  runs : List SentinelRunRow
  clock : Int
  locks : List (Int × Nat)
  answers : List (Nat × DispatchAnswer)

def Fleet.start
    (runs : List SentinelRunRow)
    (clock : Int) : Fleet where
  runs := runs
  clock := clock
  locks := []
  answers := []

abbrev DispatchThread : Type :=
  Thread Fleet DispatchLabel

def dayOf (instant : Int) : Int :=
  instant / hours 24

/- The calendar month of an instant. -/
def calendarMonth (instant : Int) : Int :=
  Calendar.monthOf (dayOf instant)

def startOfMonth (now : Int) : Int :=
  hours 24 * Calendar.monthStart (calendarMonth now)

/- `COUNT(*)` over the fleet, from `since` on. -/
def runsSince
    (runs : List SentinelRunRow)
    (since : Int) : Nat :=
  runs.countP (fun row => since ≤ row.triggeredAt)

/- The same for one organization. -/
def orgRunsSince
    (runs : List SentinelRunRow)
    (orgId : String)
    (since : Int) : Nat :=
  runs.countP
    (fun row => row.orgId == orgId && since ≤ row.triggeredAt)

/- A motion run of one camera. -/
def motionRunOf
    (orgId cameraId : String)
    (row : SentinelRunRow) : Bool :=
  row.orgId == orgId && row.cameraId == some cameraId &&
    row.triggerType == "motion"

/- Monthly run cap by plan. -/
def capForPlan : String → Int
| "pro" => 100
| "pro_plus" => 500
| "self_host" => 500
| _ => 0

def planHasSentinel : String → Bool
| "pro" => true
| "pro_plus" => true
| "self_host" => true
| _ => false

variable {α : Type}

def query
    (f : Fleet → α)
    (next : α → DispatchThread) : DispatchThread :=
  atomic .free (fun s => (s, f s)) next

def now (next : Int → DispatchThread) : DispatchThread :=
  query Fleet.clock next

/- Note the answer of a request. -/
def Fleet.answer
    (s : Fleet)
    (request : Nat)
    (answer : DispatchAnswer) : Fleet :=
  { s with answers := s.answers ++ [(request, answer)] }

def respond
    (request : Nat)
    (answer : DispatchAnswer) : DispatchThread :=
  atomic .free (fun s => (s.answer request answer, ()))
    (fun _ => .done)

def Fleet.release
    (s : Fleet)
    (request : Nat) : Fleet :=
  { s with
    locks := s.locks.filter (fun lock => lock.2 != request) }

def runCapLockKey (orgId : String) : String :=
  "sentinel-run-cap:" ++ orgId

/- The advisory lock is held until the transaction ends. -/
def lockForUpdate
    (env : DispatchEnv)
    (request : Nat)
    (key : String)
    (rest : DispatchThread) : DispatchThread :=
  await .free
    (fun s => !(s.locks.any
      (fun lock => lock.1 == env.hashtext key)))
    (fun s =>
      { s with
        locks := (env.hashtext key, request) :: s.locks })
    rest

def rollback
    (request : Nat)
    (rest : DispatchThread) : DispatchThread :=
  atomic .free (fun s => (s.release request, ()))
    (fun _ => rest)

/- The row is stored and the lock released at once. -/
def commit
    (request : Nat)
    (note : CommitNote)
    (rest : DispatchThread) : DispatchThread :=
  atomic (.commit note)
    (fun s =>
      ({ s.release request with runs := s.runs ++ [note.row] },
        ()))
    (fun _ => rest)

/- How the transaction of a request ends. -/
inductive Inserted where
  | stored
  | lostRace (used : Nat)
  | failed
  deriving DecidableEq, Repr

/-
  `_commit_run_with_cap_check`, in `insert_run` and inline in
  the manual route: the instant is read before the lock is
  waited for, the month is read for the recount.
-/
def commitRunWithCapCheck
    (env : DispatchEnv)
    (lookups : Lookups)
    (request : Nat)
    (run : NewRun)
    (cap : Int)
    (fleet : Option FleetCheck)
    (cooldownSeen : Option Nat)
    (next : Inserted → DispatchThread) : DispatchThread :=
  now (fun triggeredAt =>
    if lookups.locked then
      lockForUpdate env request (runCapLockKey run.orgId)
        (if lookups.inserted then
          now (fun recountedAt =>
            query
              (fun s =>
                orgRunsSince (s.runs ++ [run.row triggeredAt])
                  run.orgId (startOfMonth recountedAt))
              (fun used =>
                if !lookups.recounted then
                  rollback request (next .failed)
                else if cap < used then
                  rollback request (next (.lostRace used))
                else if !lookups.committed then
                  rollback request (next .failed)
                else
                  commit request
                    { row := run.row triggeredAt
                      recountSince := startOfMonth recountedAt
                      fleet := fleet
                      cooldownSeen := cooldownSeen }
                    (next .stored)))
        else
          rollback request (next .failed))
    else
      next .failed)

--------------------
-- Gates
--------------------

inductive GlobalAnswer where
  | failed
  | blocked
  | allowed (check : Option FleetCheck)

/- The kill switch, then the fleet ceiling. -/
def globalDispatchAllowed
    (env : DispatchEnv)
    (lookups : Lookups)
    (next : GlobalAnswer → DispatchThread) : DispatchThread :=
  if !env.sentinelDispatchEnabled then
    next .blocked
  else if env.sentinelGlobalMonthlyRunCap ≤ 0 then
    next (.allowed none)
  else
    now (fun checkedAt =>
      query
        (fun s =>
          { since := startOfMonth checkedAt
            seen := s.runs.length
            headroom :=
              env.sentinelGlobalMonthlyRunCap -
                runsSince s.runs (startOfMonth checkedAt) })
        (fun (check : FleetCheck) =>
          if !lookups.globalCounted then
            next .failed
          else if 0 < check.headroom then
            next (.allowed (some check))
          else
            next .blocked))

/- `KIND_TO_TRIGGER_FIELD`. -/
def kindToTriggerField : String → Option String
| "motion" => some "motion_enabled"
| "incident_created" => some "incident_opened_enabled"
| _ => none

def triggerTypeFor : String → String
| "motion_enabled" => "motion"
| "incident_opened_enabled" => "incident_opened"
| other => other

def ConfigRow.fieldOn (cfg : ConfigRow) : String → Bool
| "motion_enabled" => cfg.motionEnabled
| "incident_opened_enabled" => cfg.incidentOpenedEnabled
| _ => false

/- Absent means in scope. -/
def isCameraInScope
    (scope : Fields)
    (cameraId : Option String) : Bool :=
  match cameraId with
  | none => true
  | some camera =>
      camera == "" ||
        ((scope.lookup camera).map Json.truthy).getD true

def scheduleAllowsNow
    (env : DispatchEnv)
    (orgId : String)
    (cfg : ConfigRow)
    (at' : Int) : Bool :=
  match cfg.scheduleMode with
  | "off" => false
  | "scheduled" => env.scheduleWindow orgId at'
  | _ => true

/- Which cameras the cooldown is about, and for how long. -/
def cooldownFor
    (cfg : ConfigRow)
    (kind : String)
    (cameraId : Option String) : Option String :=
  if kind == "motion" && decide (0 < cfg.motionCooldownMin) then
    cameraId.filter (fun camera => camera != "")
  else
    none

/- The cooldown passed, with how many rows it looked at. -/
def motionCooldownAllows
    (lookups : Lookups)
    (orgId : String)
    (cfg : ConfigRow)
    (kind : String)
    (cameraId : Option String)
    (next : Option (Option Nat) → DispatchThread) :
    DispatchThread :=
  match cooldownFor cfg kind cameraId with
  | none => next (some none)
  | some camera =>
      now (fun checkedAt =>
        query
          (fun s =>
            (s.runs.length,
              s.runs.any
                (fun row =>
                  motionRunOf orgId camera row &&
                    decide
                      (checkedAt -
                          minutes cfg.motionCooldownMin ≤
                        row.triggeredAt))))
          (fun found =>
            if lookups.cooldownRead && !found.2 then
              next (some (some found.1))
            else
              next none))

/- The gates that need no look at the rows. -/
def cheapGates
    (env : DispatchEnv)
    (orgId : String)
    (cfg : ConfigRow)
    (kind : String)
    (cameraId : Option String)
    (at' : Int) : Except Refusal String :=
  let plan := env.effectivePlanForCaps orgId
  if !cfg.enabled then
    .error .sentinelDisabled
  else if !planHasSentinel plan then
    .error .planNotEligible
  else if env.sentinelBlockedByLicense plan then
    .error .licenseRequired
  else
    match kindToTriggerField kind with
    | none => .error .kindNotATrigger
    | some field =>
        if !cfg.fieldOn field then
          .error (.triggerOff field)
        else if !isCameraInScope cfg.cameraScope cameraId then
          .error .cameraOutOfScope
        else if !scheduleAllowsNow env orgId cfg at' then
          .error .outsideScheduleWindow
        else
          .ok field

/- `runs_used_this_month`. -/
def runsUsedThisMonth
    (orgId : String)
    (next : Nat → DispatchThread) : DispatchThread :=
  now (fun countedAt =>
    query
      (fun s =>
        orgRunsSince s.runs orgId (startOfMonth countedAt))
      next)

def canDispatchForKind
    (env : DispatchEnv)
    (lookups : Lookups)
    (orgId : String)
    (cfg : ConfigRow)
    (kind : String)
    (cameraId : Option String)
    (at' : Int)
    (next :
      Except Refusal (String × Option Nat) →
        DispatchThread) : DispatchThread :=
  match cheapGates env orgId cfg kind cameraId at' with
  | .error refusal => next (.error refusal)
  | .ok field =>
      motionCooldownAllows lookups orgId cfg kind cameraId
        (fun
          | none => next (.error .motionCooldownActive)
          | some cooldownSeen =>
              runsUsedThisMonth orgId (fun used =>
                if !lookups.usedRead then
                  next (.error .lookupFailed)
                else if
                  capForPlan (env.effectivePlanForCaps orgId) -
                      used ≤ 0
                then
                  next (.error .monthlyCapReached)
                else
                  next (.ok (field, cooldownSeen))))

--------------------
-- Requests
--------------------

/- An emitted notification, and the id its run would get. -/
structure Notification where
  orgId : String
  kind : String
  cameraId : Option String
  data : Option Json
  runId : String

/- The agent's own incidents do not wake it. -/
def isAgentAuthored
    (kind : String)
    (data : Option Json) : Bool :=
  kind == "incident_created" &&
    match data with
    | none => false
    | some data =>
        let createdBy :=
          (((data.asObject).bind
            (fun fields => fields.lookup "created_by")).map
              Json.strValue).getD ""
        "mcp".toList.isPrefixOf createdBy.toList ||
          "sentinel".toList.isPrefixOf createdBy.toList

def maybeDispatchForNotification
    (env : DispatchEnv)
    (lookups : Lookups)
    (notification : Notification)
    (request : Nat) : DispatchThread :=
  let orgId := notification.orgId
  let kind := notification.kind
  let cameraId := notification.cameraId
  let skipped := respond request (.notified none)
  globalDispatchAllowed env lookups (fun
    | .failed => skipped
    | .blocked => skipped
    | .allowed fleet =>
        if isAgentAuthored kind notification.data then
          skipped
        else
          match
            if lookups.configRead then
              env.configs orgId
            else
              none
          with
          | none => skipped
          | some cfg =>
              now (fun at' =>
                canDispatchForKind env lookups orgId cfg kind
                  cameraId at' (fun
                  | .error _ => skipped
                  | .ok (field, cooldownSeen) =>
                      commitRunWithCapCheck env lookups request
                        { id := notification.runId
                          orgId := orgId
                          triggerType := triggerTypeFor field
                          cameraId := cameraId
                          manualPrompt := none }
                        (capForPlan
                          (env.effectivePlanForCaps orgId))
                        fleet cooldownSeen (fun
                        | .stored =>
                            respond request
                              (.notified
                                (some notification.runId))
                        | _ => skipped))))

/- A body of the manual route that parsed. -/
structure ManualRun where
  orgId : String
  prompt : String
  cameraId : Option String
  runId : String
  deriving DecidableEq, Repr

/- `resolve_sentinel_access`, made twice on the way. -/
def resolveSentinelAccess
    (env : DispatchEnv)
    (orgId : String) : Except ManualRefusal Unit :=
  let plan := env.effectivePlanForCaps orgId
  if !planHasSentinel plan then
    .error .planRequired
  else if env.sentinelBlockedByLicense plan then
    .error .licenseRequired
  else
    .ok ()

/- A row that is missing is created switched off. -/
def manualEnabled
    (env : DispatchEnv)
    (orgId : String) : Bool :=
  (env.configs orgId).any ConfigRow.enabled

/- `cap_reached` counts once more, for its answer. -/
def capReached
    (orgId : String)
    (cap : Int)
    (request : Nat) : DispatchThread :=
  runsUsedThisMonth orgId (fun used =>
    respond request
      (.manual (.error (.monthlyCapReached cap used))))

def postManualRun
    (env : DispatchEnv)
    (lookups : Lookups)
    (manual : ManualRun)
    (request : Nat) : DispatchThread :=
  let orgId := manual.orgId
  let refuse := fun refusal =>
    respond request (.manual (.error refusal))
  let cap := capForPlan (env.effectivePlanForCaps orgId)
  match resolveSentinelAccess env orgId with
  | .error refusal => refuse refusal
  | .ok _ =>
      globalDispatchAllowed env lookups (fun
        | .failed => refuse .failed
        | .blocked => refuse .dispatchDisabled
        | .allowed fleet =>
            if !lookups.configRead then
              refuse .failed
            else if !manualEnabled env orgId then
              refuse .sentinelOff
            else
              runsUsedThisMonth orgId (fun used =>
                if !lookups.usedRead then
                  refuse .failed
                else if cap - used ≤ 0 then
                  capReached orgId cap request
                else
                  commitRunWithCapCheck env lookups request
                    { id := manual.runId
                      orgId := orgId
                      triggerType := "manual"
                      cameraId := manual.cameraId
                      manualPrompt :=
                        some
                          (truncateChars manual.prompt 2000) }
                    cap fleet none (fun
                    | .stored =>
                        respond request
                          (.manual (.ok manual.runId))
                    | .lostRace _ =>
                        capReached orgId cap request
                    | .failed => refuse .failed)))

inductive DispatchTask where
  | pass (span : Nat)
  | notify (lookups : Lookups) (notification : Notification)
  | manual (lookups : Lookups) (manual : ManualRun)

def startDispatch
    (env : DispatchEnv) :
    DispatchTask → Nat → DispatchThread
| .pass span, _ =>
    atomic .free
      (fun s => ({ s with clock := s.clock + span }, ()))
      (fun _ => .done)
| .notify lookups notification, request =>
    maybeDispatchForNotification env lookups notification
      request
| .manual lookups manual, request =>
    postManualRun env lookups manual request

/- The threads after any events. -/
def dispatched
    (env : DispatchEnv)
    (runs : List SentinelRunRow)
    (clock : Int)
    (events : List (Event DispatchTask)) : Fleet :=
  (Run.exec (step (startDispatch env))
    (initial (Fleet.start runs clock)) events).shared

end Sentinel

end SentinelCommand
