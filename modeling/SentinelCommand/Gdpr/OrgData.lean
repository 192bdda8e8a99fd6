import SentinelCommand.Lib.Relational

/-
  The tables of an organization, how they are deleted and
  how they are exported.

  Of a schema's constraints those are kept that are about a
  column some statement here reads. An exported row stands
  for its JSON object.

  Key definitions include:
    * `Gdpr.orgSchema`
    * `Gdpr.deleteOrgData`
    * `Gdpr.exportOrgData`
-/

--------------------
-- Tables
--------------------

namespace SentinelCommand

open Relational

namespace Gdpr

inductive Table where
  | settings
  | auditLog
  | streamAccessLogs
  | mcpActivityLogs
  | mcpApiKeys
  | orgMonthlyUsage
  | emailLog
  | emailOutbox
  | userNotificationState
  | notifications
  | motionEvents
  | cameraGroups
  | sentinelConfig
  | sentinelRuns
  | sentinelAgentKeys
  | incidents
  | incidentEvidence
  | cameraNodes
  | cameras
  | emailSuppression
  | processedWebhooks
  deriving DecidableEq, Repr

def Table.name : Table → String
| .settings => "settings"
| .auditLog => "audit_log"
| .streamAccessLogs => "stream_access_logs"
| .mcpActivityLogs => "mcp_activity_logs"
| .mcpApiKeys => "mcp_api_keys"
| .orgMonthlyUsage => "org_monthly_usage"
| .emailLog => "email_log"
| .emailOutbox => "email_outbox"
| .userNotificationState => "user_notification_state"
| .notifications => "notifications"
| .motionEvents => "motion_events"
| .cameraGroups => "camera_groups"
| .sentinelConfig => "sentinel_config"
| .sentinelRuns => "sentinel_runs"
| .sentinelAgentKeys => "sentinel_agent_keys"
| .incidents => "incidents"
| .incidentEvidence => "incident_evidence"
| .cameraNodes => "camera_nodes"
| .cameras => "cameras"
| .emailSuppression => "email_suppression"
| .processedWebhooks => "processed_webhooks"

/- `ORG_SCOPED_TABLES`, in the order they are emptied. -/
def orgScopedTables : List Table :=
  [.settings, .auditLog, .streamAccessLogs, .mcpActivityLogs,
    .mcpApiKeys, .orgMonthlyUsage, .emailLog, .emailOutbox,
    .userNotificationState, .notifications, .motionEvents,
    .cameraGroups, .sentinelConfig, .sentinelRuns,
    .sentinelAgentKeys]

/- The tables with an `org_id`. -/
def orgTables : List Table :=
  orgScopedTables ++ [.incidents, .cameraNodes, .cameras]

def allTables : List Table :=
  orgTables ++
    [.incidentEvidence, .emailSuppression, .processedWebhooks]

def evidenceLink : ForeignKey Table where
  child := .incidentEvidence
  column := "incident_id"
  parent := .incidents
  parentColumn := "id"
  onDelete := .cascade

def nodeLink : ForeignKey Table where
  child := .cameras
  column := "node_id"
  parent := .cameraNodes
  parentColumn := "id"
  onDelete := .noAction

def groupLink : ForeignKey Table where
  child := .cameras
  column := "group_id"
  parent := .cameraGroups
  parentColumn := "id"
  onDelete := .noAction

def orgSchema : Schema Table where
  notNull :=
    allTables.map (fun table => (table, "id")) ++
      orgTables.map (fun table => (table, "org_id")) ++
      [(.incidentEvidence, "incident_id"),
        (.cameraNodes, "node_id"), (.cameras, "camera_id")]
  unique :=
    allTables.map (fun table => (table, "id")) ++
      [(.cameraNodes, "node_id"), (.cameras, "camera_id")]
  links := [evidenceLink, nodeLink, groupLink]

abbrev OrgDb : Type :=
  Store orgSchema

/- `org_id = $1`. -/
def inOrg (orgId : String) : Row → Bool :=
  Row.has "org_id" (.text orgId)

/- `node_id IN (SELECT id FROM camera_nodes WHERE ...)`. -/
def onOwnNode
    (rows : Rows Table)
    (orgId : String)
    (camera : Row) : Bool :=
  ((rows .cameraNodes).filter (inOrg orgId)).any
    (fun node =>
      (camera.cell "node_id").same (node.cell "id"))

/- The loop over the tables and the counts it pushes. -/
def deleteScoped
    (orgId : String) :
    List Table → OrgDb →
      Option (OrgDb × List (String × Nat))
| [], db => some (db, [])
| table :: rest, db => do
    let (db, deleted) ← db.delete table (inOrg orgId)
    let (db, counts) ← deleteScoped orgId rest db
    return (db, (table.name, deleted) :: counts)

/-
  `delete_org_data`; none is the error of the statement that
  was refused, with which the transaction is rolled back.
-/
def deleteOrgData
    (db : OrgDb)
    (orgId : String) :
    Option (OrgDb × List (String × Nat)) := do
  let camerasBefore :=
    ((db.rows .cameras).filter (inOrg orgId)).length
  let (db, incidents) ← db.delete .incidents (inOrg orgId)
  let (db, _) ← db.delete .cameras (onOwnNode db.rows orgId)
  let (db, nodes) ← db.delete .cameraNodes (inOrg orgId)
  -- A camera without a node is still the organization's.
  let (db, _) ← db.delete .cameras (inOrg orgId)
  let (db, counts) ← deleteScoped orgId orgScopedTables db
  return (db,
    [("incidents", incidents), ("camera_nodes", nodes),
      ("cameras", camerasBefore)] ++ counts)

/- `CAMERA_SELECT WHERE n.node_id = $1`. -/
def cameraSelect
    (rows : Rows Table)
    (nodeId : Cell) : List Row :=
  let withNode :=
    leftJoin
      (fun camera node =>
        (node.cell "id").same (camera.cell "node_id"))
      (rows .cameras) (rows .cameraNodes)
  let withGroup :=
    leftJoin
      (fun camera group =>
        (group.cell "id").same (camera.1.cell "group_id"))
      withNode (rows .cameraGroups)
  (withGroup.filter
    (fun row => row.1.2.any (Row.has "node_id" nodeId))).map
      (fun row => row.1.1)

/- The files of the export and the rows in each. -/
def exportOrgData
    (rows : Rows Table)
    (orgId : String) : List (Table × List Row) :=
  let incidents := (rows .incidents).filter (inOrg orgId)
  let nodes := (rows .cameraNodes).filter (inOrg orgId)
  orgScopedTables.map
      (fun table => (table, (rows table).filter (inOrg orgId))) ++
    [(.incidents, incidents),
      (.incidentEvidence,
        incidents.flatMap
          (fun incident =>
            (rows .incidentEvidence).filter
              (Row.has "incident_id" (incident.cell "id")))),
      (.cameraNodes, nodes),
      (.cameras,
        nodes.flatMap
          (fun node => cameraSelect rows (node.cell "node_id")))]

def Exported
    (rows : Rows Table)
    (orgId : String)
    (table : Table)
    (row : Row) : Prop :=
  ∃ file ∈ exportOrgData rows orgId,
    file.1 = table ∧ row ∈ file.2

end Gdpr

end SentinelCommand
