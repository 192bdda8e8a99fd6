import Mathlib.Algebra.Group.Nat.Defs
import SentinelCommand.Clock
import SentinelCommand.Text

/-
  The tables that hold personal data, and the routes that
  write them.

  A row keeps the columns its writers and the eraser read
  or set. A route's gates (roles, rate limits, plans) only
  refuse a request, and a refused request writes nothing.

  Key definitions include:
    * `Privacy.Db`
    * `Privacy.writeAudit`
    * `Privacy.createIncident`, `Privacy.updateIncident`
-/

--------------------
-- Rows
--------------------

namespace SentinelCommand

namespace Privacy

/- A signed-in user; an absent claim is an empty text. -/
structure AuthUser where
  userId : String
  orgId : String
  email : String
  username : String
  deriving DecidableEq, Repr

structure AccessLog where
  userId : String
  userEmail : String
  orgId : String
  cameraId : String
  nodeId : String
  ipAddress : String
  userAgent : String
  accessedAt : Int
  deriving DecidableEq, Repr

structure AuditRow where
  orgId : String
  event : String
  ipAddress : Option String
  username : Option String
  userId : Option String
  details : Option String
  timestamp : Int
  deriving DecidableEq, Repr

structure NotificationState where
  clerkUserId : String
  orgId : String
  lastViewedAt : Option Int
  clearedAt : Option Int
  deriving DecidableEq, Repr

structure OutboxRow where
  orgId : String
  recipientEmail : String
  kind : String
  status : String
  createdAt : Int
  deriving DecidableEq, Repr

structure EmailLogRow where
  orgId : String
  recipientEmail : String
  kind : String
  status : String
  timestamp : Int
  deriving DecidableEq, Repr

structure SuppressionRow where
  address : String
  reason : String
  source : String
  createdAt : Int
  deriving DecidableEq, Repr

structure Incident where
  id : Int
  orgId : String
  cameraId : Option String
  title : String
  summary : String
  report : Option String
  severity : String
  status : String
  createdBy : String
  createdAt : Int
  updatedAt : Int
  resolvedAt : Option Int
  resolvedBy : Option String
  deriving DecidableEq, Repr

structure AgentKey where
  id : Int
  orgId : String
  name : String
  createdBy : String
  revoked : Bool
  createdAt : Int
  deriving DecidableEq, Repr

/- Rows are in the order they were inserted. -/
structure Db where
  accessLogs : List AccessLog
  auditLog : List AuditRow
  notificationStates : List NotificationState
  emailOutbox : List OutboxRow
  emailLog : List EmailLogRow
  emailSuppression : List SuppressionRow
  incidents : List Incident
  agentKeys : List AgentKey
  nextIncident : Int
  nextAgentKey : Int
  deriving DecidableEq, Repr

/- The tables of a new installation. -/
def Db.empty : Db where
  accessLogs := []
  auditLog := []
  notificationStates := []
  emailOutbox := []
  emailLog := []
  emailSuppression := []
  incidents := []
  agentKeys := []
  nextIncident := 1
  nextAgentKey := 1

/- `chars().take(max).collect()`. -/
def truncate (text : String) (max : Nat) : String :=
  String.ofList (text.toList.take max)

/- The row of the viewer's playlist route. -/
def accessLogRow
    (user : AuthUser)
    (cameraId nodeId peerIp userAgent : String)
    (now : Int) : AccessLog where
  userId := user.userId
  userEmail := user.email
  orgId := user.orgId
  cameraId := cameraId
  nodeId := nodeId
  ipAddress := peerIp
  userAgent := truncate userAgent 500
  accessedAt := now

/- The route's INSERT, when a row is due. -/
def logStreamAccess
    (db : Db)
    (user : AuthUser)
    (cameraId nodeId peerIp userAgent : String)
    (now : Int) : Db :=
  { db with
    accessLogs := db.accessLogs ++
      [accessLogRow user cameraId nodeId peerIp userAgent
        now] }

def auditLabel (user : AuthUser) : String :=
  if user.email ≠ "" then user.email
  else if user.username ≠ "" then user.username
  else truncate user.userId 32

/- Who an audited route acts for. -/
inductive Actor where
  | user (who : AuthUser)
  | userUnlabelled (who : AuthUser)
  | node (nodeId : String)
  | visitor
  deriving DecidableEq, Repr

/- The user id and the label the route passes on. -/
def Actor.identity : Actor → String × String
| .user who => (who.userId, auditLabel who)
| .userUnlabelled who =>
    (who.userId,
      if who.email ≠ "" then who.email else who.username)
| .node nodeId => ("", "node:" ++ nodeId)
| .visitor => ("", "")

/- An empty text is stored as NULL. -/
def orNull (text : String) : Option String :=
  if text = "" then none else some text

/- The row `write_audit` inserts. -/
def auditRow
    (orgId event : String)
    (actor : Actor)
    (details : Option String)
    (clientIp : String)
    (now : Int) : AuditRow where
  orgId := orgId
  event := truncate event 50
  ipAddress := orNull (truncate clientIp 45)
  username := orNull (truncate actor.identity.2 80)
  userId := orNull (truncate actor.identity.1 100)
  details := details
  timestamp := now

def writeAudit
    (db : Db)
    (orgId event : String)
    (actor : Actor)
    (details : Option String)
    (clientIp : String)
    (now : Int) : Db :=
  { db with
    auditLog := db.auditLog ++
      [auditRow orgId event actor details clientIp now] }

/- `INSERT … ON CONFLICT DO NOTHING`. -/
def getOrInitState
    (db : Db)
    (userId orgId : String)
    (now : Int) : Db :=
  if db.notificationStates.any
      (fun row =>
        row.clerkUserId == userId && row.orgId == orgId) then
    db
  else
    { db with
      notificationStates := db.notificationStates ++
        [{ clerkUserId := userId
           orgId := orgId
           lastViewedAt := some now
           clearedAt := none }] }

/- The UPDATE of `mark_viewed` and of `clear_all`. -/
def setState
    (db : Db)
    (userId orgId : String)
    (f : NotificationState → Option Int × Option Int) : Db :=
  { db with
    notificationStates := db.notificationStates.map
      (fun row =>
        if row.clerkUserId = userId ∧ row.orgId = orgId then
          { row with
            lastViewedAt := (f row).1
            clearedAt := (f row).2 }
        else
          row) }

def markViewed
    (db : Db)
    (user : AuthUser)
    (now : Int) : Db :=
  setState (getOrInitState db user.userId user.orgId now)
    user.userId user.orgId
    (fun row => (some now, row.clearedAt))

def clearAll
    (db : Db)
    (user : AuthUser)
    (now : Int) : Db :=
  setState (getOrInitState db user.userId user.orgId now)
    user.userId user.orgId
    (fun _ => (some now, some now))

--------------------
-- Incidents over REST
--------------------

def severities : List String :=
  ["low", "medium", "high", "critical"]

def statuses : List String :=
  ["open", "acknowledged", "resolved", "dismissed"]

/- `str::trim`. -/
def trimText (text : String) : String :=
  String.ofList (Text.trim text.toList)

/- The statuses that close an incident. -/
def terminal (status : String) : Bool :=
  status == "resolved" || status == "dismissed"

/- The INSERT both writers of a new incident share. -/
def insertIncident
    (db : Db)
    (orgId : String)
    (cameraId : Option String)
    (title summary severity createdBy : String)
    (createdAt updatedAt : Int) : Db :=
  { db with
    incidents := db.incidents ++
      [{ id := db.nextIncident
         orgId := orgId
         cameraId := cameraId
         title := title
         summary := summary
         report := some ""
         severity := severity
         status := "open"
         createdBy := createdBy
         createdAt := createdAt
         updatedAt := updatedAt
         resolvedAt := none
         resolvedBy := none }]
    nextIncident := db.nextIncident + 1 }

/- A parsed body of `POST /api/incidents`. -/
structure IncidentBody where
  title : String
  summary : String
  severity : String
  cameraId : Option String
  deriving DecidableEq, Repr

/-
  `cameraKnown` is what the lookup in `cameras` finds; the
  clock is read once for each of the two timestamps.
-/
def createIncident
    (db : Db)
    (user : AuthUser)
    (body : IncidentBody)
    (cameraKnown : Bool)
    (now later : Int) : Except String Db :=
  if body.severity ∉ severities then
    .error ("Invalid severity: " ++ body.severity)
  else if trimText body.title = "" then
    .error "title is required"
  else if trimText body.summary = "" then
    .error "summary is required"
  else if body.cameraId.getD "" ≠ "" ∧
      cameraKnown = false then
    .error
      ("Camera '" ++ body.cameraId.getD "" ++ "' not found")
  else
    .ok (insertIncident db user.orgId body.cameraId
      (truncate (trimText body.title) 200)
      (trimText body.summary) body.severity
      ("user:" ++ user.userId) now later)

structure IncidentPatch where
  status : Option String
  severity : Option String
  summary : Option String
  report : Option String
  deriving DecidableEq, Repr

def isIncident
    (orgId : String)
    (incidentId : Int)
    (row : Incident) : Bool :=
  row.id == incidentId && row.orgId == orgId

def ownedIncident
    (db : Db)
    (orgId : String)
    (incidentId : Int) : Option Incident :=
  db.incidents.find? (isIncident orgId incidentId)

/- UPDATE the `incidents` rows a filter keeps. -/
def setIncident
    (db : Db)
    (hit : Incident → Bool)
    (f : Incident → Incident) : Db :=
  { db with
    incidents := db.incidents.map
      (fun row => if hit row then f row else row) }

/- `resolved_at` and `resolved_by` after a status patch. -/
def resolution
    (incident : Incident)
    (newStatus who : String)
    (now : Int) : Option Int × Option String :=
  if terminal newStatus ∧ ¬ terminal incident.status then
    (some now, some who)
  else if newStatus = "open" then
    (none, none)
  else
    (incident.resolvedAt, incident.resolvedBy)

/- The incident as the patch leaves it, `updated_at` apart. -/
def patched
    (incident : Incident)
    (patch : IncidentPatch)
    (who : String)
    (now : Int) : Incident :=
  let resolved :=
    match patch.status with
    | none => (incident.resolvedAt, incident.resolvedBy)
    | some status => resolution incident status who now
  { incident with
    status := patch.status.getD incident.status
    severity := patch.severity.getD incident.severity
    summary := patch.summary.getD incident.summary
    report := patch.report.or incident.report
    resolvedAt := resolved.1
    resolvedBy := resolved.2 }

/- Nothing is written when nothing changed. -/
def updateIncident
    (db : Db)
    (user : AuthUser)
    (incidentId : Int)
    (patch : IncidentPatch)
    (now : Int) : Except String Db :=
  match ownedIncident db user.orgId incidentId with
  | none => .error "Incident not found"
  | some incident =>
      if patch.status.getD "open" ∉ statuses then
        .error
          ("Invalid status: " ++ patch.status.getD "open")
      else if patch.severity.getD "low" ∉ severities then
        .error
          ("Invalid severity: " ++ patch.severity.getD "low")
      else
        let row :=
          patched incident patch ("user:" ++ user.userId) now
        if row = incident then
          .ok db
        else
          .ok (setIncident db (isIncident user.orgId incidentId)
            (fun old =>
              { old with
                status := row.status
                severity := row.severity
                summary := row.summary
                report := row.report
                resolvedAt := row.resolvedAt
                resolvedBy := row.resolvedBy
                updatedAt := now }))

def deleteIncident
    (db : Db)
    (orgId : String)
    (incidentId : Int) : Db :=
  { db with
    incidents := db.incidents.filter
      (fun row => !isIncident orgId incidentId row) }

--------------------
-- Incidents over MCP
--------------------

def agentLabel (keyName : String) : String :=
  "mcp:" ++ (if keyName = "" then "unknown" else keyName)

def dailyCapRefusal
    (createdToday cap : Nat) : Option String :=
  if createdToday ≥ cap then
    some
      ("Daily incident-creation cap reached (" ++
        toString cap ++ "/day). Update an existing " ++
        "incident instead, or wait until tomorrow.")
  else
    none

def maxIncidentsPerOrgPerDay : Nat :=
  200

def maxSummaryChars : Nat :=
  2000

def maxReportChars : Nat :=
  64000

/- Midnight of the day `now` is in. -/
def dayStart (now : Int) : Int :=
  now - now % hours 24

/- The incidents an org has filed since midnight. -/
def createdToday
    (db : Db)
    (orgId : String)
    (now : Int) : Nat :=
  (db.incidents.filter
    (fun row =>
      row.orgId == orgId && dayStart now ≤ row.createdAt)
  ).length

def invalidChoice
    (what value : String)
    (choices : List String) : String :=
  "Invalid " ++ what ++ " '" ++ value ++
    "'. Must be one of: " ++ ", ".intercalate choices

/- The arguments of the tool, an absent text being empty. -/
def toolCreateIncident
    (db : Db)
    (orgId keyName : String)
    (title summary : String)
    (severityArg cameraIdArg : Option String)
    (cameraKnown : Bool)
    (now : Int) : Except String Db :=
  let severity := severityArg.getD "medium"
  let cameraId := cameraIdArg.filter (· ≠ "")
  if severity ∉ severities then
    .error (invalidChoice "severity" severity severities)
  else if trimText title = "" then
    .error "title is required"
  else if trimText summary = "" then
    .error "summary is required"
  else if summary.length > maxSummaryChars then
    .error
      ("summary too long (" ++ toString summary.length ++
        " chars; max " ++ toString maxSummaryChars ++
        "). Put detail in the report via finalize_incident.")
  else
    match dailyCapRefusal (createdToday db orgId now)
        maxIncidentsPerOrgPerDay with
    | some refusal => .error refusal
    | none =>
        if cameraId.isSome ∧ cameraKnown = false then
          .error
            ("Camera '" ++ cameraId.getD "" ++ "' not found")
        else
          .ok (insertIncident db orgId cameraId
            (truncate (trimText title) 200)
            (trimText summary) severity (agentLabel keyName)
            now now)

/- `as i32`. -/
def asI32 (n : Int) : Int :=
  Int.bmod n (2 ^ 32)

/- The UPDATEs of a status argument. -/
def toolSetStatus
    (db : Db)
    (keyName : String)
    (incidentId : Int)
    (existing : Incident)
    (status : String)
    (now : Int) : Db :=
  setIncident db (·.id == incidentId)
    (fun row =>
      if terminal status ∧ ¬ terminal existing.status then
        { row with
          status := status
          resolvedAt := some now
          resolvedBy := some (agentLabel keyName)
          updatedAt := now }
      else if status = "open" then
        { row with
          status := status
          resolvedAt := none
          resolvedBy := none
          updatedAt := now }
      else
        { row with status := status, updatedAt := now })

/- The UPDATE of a severity argument, if there is one. -/
def toolSetSeverity
    (db : Db)
    (incidentId : Int)
    (severity : Option String)
    (now : Int) : Db :=
  match severity with
  | none => db
  | some severity =>
      setIncident db (·.id == incidentId)
        (fun row =>
          { row with severity := severity, updatedAt := now })

/- The UPDATE of a summary argument, or its refusal. -/
def toolSetSummary
    (db : Db)
    (incidentId : Int)
    (summary : Option String)
    (now : Int) : Except String Db :=
  match summary with
  | none => .ok db
  | some summary =>
      if trimText summary = "" then
        .error ("summary cannot be blank — pass None to " ++
          "leave it unchanged")
      else if summary.length > maxSummaryChars then
        .error
          ("summary too long (" ++ toString summary.length ++
            " chars; max " ++ toString maxSummaryChars ++ ")")
      else
        .ok (setIncident db (·.id == incidentId)
          (fun row =>
            { row with
              summary := trimText summary
              updatedAt := now }))

/- The UPDATE of a report argument, or its refusal. -/
def toolSetReport
    (db : Db)
    (incidentId : Int)
    (report : Option String)
    (now : Int) : Except String Db :=
  match report with
  | none => .ok db
  | some report =>
      if report.length > maxReportChars then
        .error
          ("report too long (" ++ toString report.length ++
            " chars; max " ++ toString maxReportChars ++ ")")
      else
        .ok (setIncident db (·.id == incidentId)
          (fun row =>
            { row with
              report := some (trimText report)
              updatedAt := now }))

/- What the tool refuses before it reads the incident. -/
def toolUpdateRefusal
    (patch : IncidentPatch) : Option String :=
  if patch.status.getD "open" ∉ statuses then
    some (invalidChoice "status" (patch.status.getD "open")
      statuses)
  else if patch.severity.getD "low" ∉ severities then
    some (invalidChoice "severity"
      (patch.severity.getD "low") severities)
  else if patch.report.any (fun text => trimText text = "") then
    some ("report cannot be empty — pass None to leave the " ++
      "existing report unchanged, or pass the full revised " ++
      "markdown body")
  else
    none

/-
  The tool's UPDATEs run one by one outside a transaction:
  a refused summary or report leaves the earlier ones. The
  tables are returned beside the refusal, if there is one.
-/
def toolUpdateIncident
    (db : Db)
    (orgId keyName : String)
    (incidentIdArg : Int)
    (patch : IncidentPatch)
    (now : Int) : Db × Option String :=
  let incidentId := asI32 incidentIdArg
  match toolUpdateRefusal patch with
  | some refusal => (db, some refusal)
  | none =>
    match ownedIncident db orgId incidentId with
    | none =>
        (db, some ("Incident " ++ toString incidentIdArg ++
          " not found"))
    | some existing =>
        let first :=
          match patch.status with
          | none => db
          | some status =>
              toolSetStatus db keyName incidentId existing
                status now
        let second :=
          toolSetSeverity first incidentId patch.severity now
        match toolSetSummary second incidentId
            patch.summary now with
        | .error refusal => (second, some refusal)
        | .ok third =>
            match toolSetReport third incidentId
                patch.report now with
            | .error refusal => (third, some refusal)
            | .ok fourth => (fourth, none)

def createAgentKey
    (db : Db)
    (user : AuthUser)
    (name : String)
    (now : Int) : Db :=
  { db with
    agentKeys := db.agentKeys ++
      [{ id := db.nextAgentKey
         orgId := user.orgId
         name := name
         createdBy := user.userId
         revoked := false
         createdAt := now }]
    nextAgentKey := db.nextAgentKey + 1 }

def revokeAgentKey
    (db : Db)
    (orgId : String)
    (keyId : Int) : Db :=
  { db with
    agentKeys := db.agentKeys.map
      (fun row =>
        if row.id = keyId ∧ row.orgId = orgId then
          { row with revoked := true }
        else
          row) }

--------------------
-- Email
--------------------

/- One INSERT for each recipient, in one transaction. -/
def enqueue
    (db : Db)
    (orgId kind : String)
    (recipients : List String)
    (now : Int) : Db :=
  { db with
    emailOutbox := db.emailOutbox ++
      recipients.map
        (fun address =>
          { orgId := orgId
            recipientEmail := address
            kind := kind
            status := "pending"
            createdAt := now }) }

/-
  `write_log` for an outbox row: a failure that will be
  tried again is not logged.
-/
def writeLog
    (db : Db)
    (row : OutboxRow)
    (status finalStatus : String)
    (now : Int) : Db :=
  if status = "failed" ∧ finalStatus = "pending" then
    db
  else
    { db with
      emailLog := db.emailLog ++
        [{ orgId := row.orgId
           recipientEmail := row.recipientEmail
           kind := row.kind
           status := status
           timestamp := now }] }

/- The status moves a row makes on its way. -/
def setOutboxStatus
    (db : Db)
    (index : Nat)
    (status : String) : Db :=
  match db.emailOutbox[index]? with
  | none => db
  | some row =>
      { db with
        emailOutbox :=
          db.emailOutbox.set index
            { row with status := status } }

/- Send one outbox row and record what became of it. -/
def processRow
    (db : Db)
    (index : Nat)
    (status finalStatus : String)
    (now : Int) : Db :=
  match db.emailOutbox[index]? with
  | none => db
  | some row =>
      writeLog (setOutboxStatus db index finalStatus) row
        status finalStatus now

/- The address is UNIQUE: a second INSERT fails. -/
def suppress
    (db : Db)
    (address reason source : String)
    (now : Int) : Db :=
  if db.emailSuppression.any (·.address == address) then
    db
  else
    { db with
      emailSuppression := db.emailSuppression ++
        [{ address := address
           reason := reason
           source := source
           createdAt := now }] }

/- The webhook's writer: trimmed and lower-cased. -/
def insertSuppression
    (toLowercase : String → String)
    (db : Db)
    (address reason source : String)
    (now : Int) : Db :=
  let addr := toLowercase (trimText address)
  if addr = "" ∨ '@' ∉ addr.toList then
    db
  else
    suppress db addr reason source now

/- The unsubscribe link's writer: the token's own text. -/
def unsubscribe
    (db : Db)
    (recipient : String)
    (now : Int) : Db :=
  suppress db recipient "unsubscribe" "unsubscribe_link" now

def wipeStreamLogs
    (db : Db)
    (orgId : String) : Db :=
  { db with
    accessLogs := db.accessLogs.filter (·.orgId ≠ orgId) }

/- The retention pass over one org's logs. -/
def cleanupLogs
    (db : Db)
    (orgId : String)
    (cutoff : Int) : Db :=
  { db with
    accessLogs := db.accessLogs.filter
      (fun row => !(row.orgId == orgId &&
        row.accessedAt < cutoff))
    auditLog := db.auditLog.filter
      (fun row => !(row.orgId == orgId &&
        row.timestamp < cutoff))
    emailLog := db.emailLog.filter
      (fun row => !(row.orgId == orgId &&
        row.timestamp < cutoff)) }

/- The retention pass over finished outbox rows. -/
def cleanupOutbox
    (db : Db)
    (cutoff : Int) : Db :=
  { db with
    emailOutbox := db.emailOutbox.filter
      (fun row =>
        !(["sent", "failed", "suppressed"].contains
            row.status &&
          row.createdAt < cutoff)) }

/- What `delete_org_data` removes from these tables. -/
def deleteOrgData
    (db : Db)
    (orgId : String) : Db :=
  { db with
    accessLogs := db.accessLogs.filter (·.orgId ≠ orgId)
    auditLog := db.auditLog.filter (·.orgId ≠ orgId)
    notificationStates :=
      db.notificationStates.filter (·.orgId ≠ orgId)
    emailOutbox := db.emailOutbox.filter (·.orgId ≠ orgId)
    emailLog := db.emailLog.filter (·.orgId ≠ orgId)
    incidents := db.incidents.filter (·.orgId ≠ orgId)
    agentKeys := db.agentKeys.filter (·.orgId ≠ orgId) }

end Privacy

end SentinelCommand
