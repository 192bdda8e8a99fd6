import SentinelCommand.Hls.Deletion
import SentinelCommand.Lib.Faults
import SentinelCommand.Plans.CameraCap

/-
  The operations that change what the auth cache holds, with
  the points at which their database statements may fail.

  Beside the rows the state keeps the generation and, for
  the last commit that took a fact away, the generation it
  was made under. Only positive answers are cached, so a new
  row takes nothing away.

  Key definitions include:
    * `Sites.AuthSite`, `Sites.Followed`
    * `Sites.rotateApiKey`, `Sites.deleteNode`,
      `Sites.decommissionSelf`
    * `Sites.fullReset`, `Sites.eraseOrg`
-/

--------------------
-- Facts and Commits
--------------------

namespace SentinelCommand

open Faults Hls Plans

namespace Sites

/-
  A node's key or a camera's node, name, flag or
  organization is no longer what it was.
-/
def Disturbs (before after : Db) : Prop :=
  (∃ node ∈ before.cameraNodes, node ∉ after.cameraNodes) ∨
    ∃ camera ∈ before.cameras, camera ∉ after.cameras

instance (before after : Db) : Decidable (Disturbs before after) :=
  inferInstanceAs
    (Decidable ((∃ node ∈ before.cameraNodes, _) ∨
      ∃ camera ∈ before.cameras, _))

structure AuthSite where
  rows : Db
  generation : Nat
  changedAt : Option Nat

def AuthSite.commit
    (change : Db → Db)
    (s : AuthSite) : AuthSite where
  rows := change s.rows
  generation := s.generation
  changedAt :=
    if Disturbs s.rows (change s.rows) then
      some s.generation
    else
      s.changedAt

/- `invalidate_auth_cache`. -/
def AuthSite.invalidate (s : AuthSite) : AuthSite :=
  { s with generation := s.generation + 1 }

/- The last change was followed by an invalidation. -/
def Followed (s : AuthSite) : Prop :=
  ∀ generation ∈ s.changedAt, generation < s.generation

instance (s : AuthSite) : Decidable (Followed s) :=
  inferInstanceAs
    (Decidable (∀ generation ∈ s.changedAt, _))

abbrev SiteHandler (α : Type) : Type :=
  Handler AuthSite Empty α

def databaseError : String := "database error"

def select {α : Type} (f : Db → α) : SiteHandler α :=
  query (fun s => f s.rows) databaseError

/- A statement outside a transaction commits on its own. -/
def write (change : Db → Db) : SiteHandler Unit :=
  must (AuthSite.commit change) databaseError

def transact (changes : List (Db → Db)) : SiteHandler Unit :=
  transaction databaseError changes.length
    (AuthSite.commit
      (fun rows =>
        changes.foldl (fun rows change => change rows) rows))

def invalidateAuthCache : SiteHandler Unit :=
  update AuthSite.invalidate

/- `write_audit`: its error is logged. -/
def writeAudit : SiteHandler Unit :=
  swallow id

def mapCameras
    (change : CameraRow → CameraRow)
    (hId : ∀ row, (change row).cameraId = row.cameraId)
    (db : Db) : Db where
  cameraNodes := db.cameraNodes
  cameras := db.cameras.map change
  unique := by
    have hIds :
        (db.cameras.map change).map CameraRow.cameraId =
          db.cameras.map CameraRow.cameraId := by
      rw [List.map_map]
      exact List.map_congr_left (fun row _ => hId row)
    rw [hIds]
    exact db.unique

/- `UPDATE camera_nodes SET api_key_hash`. -/
def setKey (pk : Int) (keyHash : String) (db : Db) : Db :=
  { db with
    cameraNodes :=
      db.cameraNodes.map (fun node =>
        if node.pk = pk then
          { node with apiKeyHash := keyHash }
        else
          node) }

/- `UPDATE cameras SET name`. -/
def setName (cameraId name : String) (db : Db) : Db :=
  mapCameras
    (fun row =>
      if row.cameraId = cameraId then
        { row with name := name }
      else
        row)
    (fun row => by split <;> rfl) db

/- `UPDATE cameras SET disabled_by_plan`. -/
def setFlag
    (orgId : String)
    (flip : String × Bool)
    (db : Db) : Db :=
  mapCameras
    (fun row =>
      if row.cameraId = flip.1 ∧ row.orgId = orgId then
        { row with disabledByPlan := flip.2 }
      else
        row)
    (fun row => by split <;> rfl) db

/- `INSERT INTO cameras`, under the unique index. -/
def insertCamera (row : CameraRow) (db : Db) : Db :=
  if hTaken : row.cameraId ∈ db.cameras.map CameraRow.cameraId then
    db
  else
    { cameraNodes := db.cameraNodes
      cameras := db.cameras ++ [row]
      unique := by
        rw [List.map_append]
        exact List.nodup_append.mpr
          ⟨db.unique, List.nodup_singleton _, by
            intro a ha b hb hab
            rw [List.map_singleton, List.mem_singleton] at hb
            exact hTaken (hb ▸ hab ▸ ha)⟩ }

/- The cameras' statement of `delete_org_data`. -/
def deleteNodeCameras (orgId : String) (db : Db) : Db :=
  db.keep (fun _ => true)
    (fun row =>
      !db.cameraNodes.any
        (fun node =>
          node.orgId == orgId && row.nodePk == some node.pk))

/- `delete_org_data`: a count, four tables and the others. -/
def deleteOrgStatements (orgId : String) : List (Db → Db) :=
  [id, id, deleteNodeCameras orgId,
    fun db => db.keep (·.orgId ≠ orgId) (fun _ => true),
    fun db => db.keep (fun _ => true) (·.orgId ≠ orgId)] ++
    List.replicate 15 id

--------------------
-- Operations
--------------------

def findNode (nodeId orgId : String) (db : Db) : Option NodeRow :=
  db.cameraNodes.find?
    (fun node => node.nodeId == nodeId && node.orgId == orgId)

def rotateApiKey
    (nodeId orgId newKeyHash : String) : SiteHandler Unit := do
  match ← select (findNode nodeId orgId) with
  | none => refuse "Node not found"
  | some node => do
      write (setKey node.pk newKeyHash)
      invalidateAuthCache
      writeAudit

def deleteNode (nodeId orgId : String) : SiteHandler Unit := do
  match ← select (findNode nodeId orgId) with
  | none => refuse "Node not found"
  | some node => do
      let _ ← select (cameraIdsWhere (onNode node.pk))
      transact
        [fun db =>
          db.keep (fun _ => true) (fun row => !onNode node.pk row),
          fun db => db.keep (·.pk ≠ node.pk) (fun _ => true)]
      invalidateAuthCache
      writeAudit

/- Two statements outside a transaction. -/
def decommissionSelf (keyHash : String) : SiteHandler Unit := do
  match ←
    select (fun db =>
      db.cameraNodes.find? (·.apiKeyHash == keyHash)) with
  | none => refuse "Node not found"
  | some node => do
      let _ ← select (cameraIdsWhere (onNode node.pk))
      write (fun db =>
        db.keep (fun _ => true) (fun row => !onNode node.pk row))
      write (fun db =>
        db.keep (·.pk ≠ node.pk) (fun _ => true))
      invalidateAuthCache
      writeAudit

/- The cameras of each node, for their caches. -/
def selectEach : List NodeRow → SiteHandler Unit
| [] => pure ()
| node :: rest => do
    let _ ← select (cameraIdsWhere (onNode node.pk))
    selectEach rest

def fullReset (orgId : String) : SiteHandler Unit := do
  let nodes ←
    select (fun db => db.cameraNodes.filter (·.orgId == orgId))
  selectEach nodes
  transact (deleteOrgStatements orgId)
  invalidateAuthCache
  writeAudit

def eraseOrg (orgId : String) : SiteHandler Unit := do
  let _ ← select (cameraIdsWhere (·.orgId == orgId))
  transact (deleteOrgStatements orgId)
  invalidateAuthCache
  pure ()

/- When a camera's row was created, and its number. -/
abbrev Ages : Type :=
  String → Option Int × Int

/- The rows `enforce_camera_cap` reads, oldest first. -/
def capRows
    (ages : Ages)
    (orgId : String)
    (db : Db) : List CapCamera :=
  byAge
    ((db.cameras.filter (·.orgId == orgId)).map (fun row =>
      { id := (ages row.cameraId).2
        cameraId := row.cameraId
        createdAt := (ages row.cameraId).1
        disabledByPlan := some row.disabledByPlan }))

def capWrites
    (orgId : String)
    (flips : List (String × Bool)) :
    List (AuthSite → AuthSite) :=
  flips.map (fun flip => AuthSite.commit (setFlag orgId flip))

/- The invalidation comes after the last of the updates. -/
def enforceCameraCap
    (ages : Ages)
    (plan orgId : String) : SiteHandler Unit := do
  let flips ←
    select (fun db => flipsOf plan (capRows ages orgId db))
  mustAll databaseError (capWrites orgId flips)
  if flips.isEmpty then
    pure ()
  else do
    invalidateAuthCache
    pure ()

/- A reported camera; its device path is sanitized. -/
structure ReportedCamera where
  sanitizedDevice : String
  name : Option String
  deriving DecidableEq, Repr

/- What the request says and what is known beside the rows. -/
structure Registration where
  nodeId : String
  keyHash : String
  versionSupported : Bool
  hasCodec : Bool
  cameras : List ReportedCamera
  plan : String
  effectivePlan : String
  deriving DecidableEq, Repr

def Registration.cameraId
    (r : Registration)
    (cam : ReportedCamera) : String :=
  r.nodeId ++ "_" ++ cam.sanitizedDevice

/- `name.filter(|n| !n.is_empty())`. -/
def nonEmpty (name : Option String) : Option String :=
  name.filter (fun n => !n.isEmpty)

/- The loop over the reported cameras, with the count so far. -/
def registerCameras
    (r : Registration)
    (node : NodeRow) :
    List ReportedCamera → Nat → SiteHandler Unit
| [], _ => pure ()
| cam :: rest, used => do
    let found ←
      select (fun db =>
        db.cameras.find? (·.cameraId == r.cameraId cam))
    match found with
    | some row => do
        write
          (setName row.cameraId
            ((nonEmpty cam.name).getD row.name))
        invalidateAuthCache
        if r.hasCodec then
          write id
        registerCameras r node rest used
    | none =>
        if (getPlanLimits r.plan).maxCameras ≤ used then
          registerCameras r node rest used
        else do
          write
            (insertCamera
              { cameraId := r.cameraId cam
                nodePk := some node.pk
                orgId := node.orgId
                name :=
                  (nonEmpty cam.name).getD
                    ("Camera " ++ cam.sanitizedDevice)
                disabledByPlan := false })
          registerCameras r node rest (used + 1)

/- The cameras the node no longer reports, a commit each. -/
def removeStale : List String → SiteHandler Unit
| [] => pure ()
| cameraId :: rest => do
    write (fun db =>
      db.keep (fun _ => true) (·.cameraId ≠ cameraId))
    invalidateAuthCache
    removeStale rest

/- `register_node` up to the cap, with the node's org. -/
def registerRows (r : Registration) : SiteHandler String := do
  match ←
    select (fun db =>
      db.cameraNodes.find? (·.nodeId == r.nodeId)) with
  | none =>
      refuse
        "Node not found. Create this node in the dashboard first."
  | some node =>
      if node.apiKeyHash ≠ r.keyHash then do
        -- The attempt is recorded on the node's row.
        swallow id
        refuse "Invalid API key for this node"
      else do
        write id
        if !r.versionSupported then do
          swallow id
          refuse "CameraNode is no longer supported."
        else do
          write id
          if r.hasCodec then
            write id
          let used ←
            select (fun db =>
              (db.cameras.filter (·.orgId == node.orgId)).length)
          registerCameras r node r.cameras used
          let onIt ← select (cameraIdsWhere (onNode node.pk))
          removeStale
            (onIt.filter (fun cameraId =>
              !(r.cameras.map r.cameraId).contains cameraId))
          pure node.orgId

def registerNode
    (ages : Ages)
    (r : Registration) : SiteHandler Unit := do
  let orgId ← registerRows r
  enforceCameraCap ages r.effectivePlan orgId

inductive SiteOp where
  | rotateKey (nodeId orgId newKeyHash : String)
  | deleteNode (nodeId orgId : String)
  | decommission (keyHash : String)
  | fullReset (orgId : String)
  | eraseOrg (orgId : String)
  | register (r : Registration)
  | enforceCap (plan orgId : String)
  deriving DecidableEq, Repr

def SiteOp.handler (ages : Ages) : SiteOp → SiteHandler Unit
| .rotateKey nodeId orgId newKeyHash =>
    rotateApiKey nodeId orgId newKeyHash
| .deleteNode nodeId orgId => Sites.deleteNode nodeId orgId
| .decommission keyHash => decommissionSelf keyHash
| .fullReset orgId => Sites.fullReset orgId
| .eraseOrg orgId => Sites.eraseOrg orgId
| .register r => registerNode ages r
| .enforceCap plan orgId => enforceCameraCap ages plan orgId

end Sites

end SentinelCommand
