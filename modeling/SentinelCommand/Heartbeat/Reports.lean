import Mathlib.Init

/-
  The camera part of a heartbeat, as the HTTP route and the
  WebSocket handler each have it.

  Both read the node's reported cameras once and then write
  the reports one by one, in order. The route remembers each
  status it writes; the handler compares with what it read.

  Key definitions include:
    * `Heartbeat.cameraTransition`
    * `Heartbeat.nodeHeartbeat`
    * `Heartbeat.handleHeartbeat`
-/

--------------------
-- Cameras and Reports
--------------------

namespace SentinelCommand

namespace Heartbeat

/- A row of `cameras`; its `camera_id` is unique. -/
structure CameraRow where
  cameraId : String
  nodeId : Option Int
  name : String
  status : Option String
  lastSeen : Option Int
  lastError : Option String
  deriving DecidableEq, Repr

structure CameraStatusReport where
  cameraId : String
  status : String
  lastError : Option String
  deriving DecidableEq, Repr

inductive Direction where
  | offline
  | online
  deriving DecidableEq, Repr

/- `online` and `streaming` are one state. -/
def isLive (status : String) : Bool :=
  status == "online" || status == "streaming"

/-
  Going offline is announced from anything else, coming back
  only from `offline`.
-/
def cameraTransition
    (previous : Option String)
    (new : String) : Option Direction :=
  if new = "offline" ∧ previous ≠ some "offline" then
    some .offline
  else if isLive new ∧ previous = some "offline" then
    some .online
  else
    none

/- A transition to announce. -/
structure CameraTransition where
  cameraId : String
  displayName : String
  direction : Direction
  deriving DecidableEq, Repr

def displayName (name cameraId : String) : String :=
  if name = "" then cameraId else name

/- The statuses that keep a reason. -/
def keepsError (status : String) : Bool :=
  status == "restarting" || status == "failed" ||
    status == "error"

def isOwnCamera
    (node : Int)
    (cameraId : String)
    (row : CameraRow) : Bool :=
  row.cameraId == cameraId && row.nodeId == some node

/- `UPDATE cameras … WHERE camera_id AND node_id`. -/
def updateCamera
    (rows : List CameraRow)
    (node : Int)
    (cameraId : String)
    (status : String)
    (now : Int)
    (lastError : Option String) : List CameraRow :=
  rows.map (fun row =>
    if isOwnCamera node cameraId row then
      { row with
        status := some status
        lastSeen := some now
        lastError := lastError }
    else
      row)

/- A camera as it was read before the first write. -/
structure Known where
  cameraId : String
  status : Option String
  name : String
  deriving DecidableEq, Repr

/- `SELECT … WHERE camera_id = ANY AND node_id`. -/
def knownCameras
    (rows : List CameraRow)
    (node : Int)
    (ids : List String) : List Known :=
  (rows.filter
    (fun row =>
      ids.contains row.cameraId && row.nodeId == some node)
  ).map (fun row =>
    { cameraId := row.cameraId
      status := row.status
      name := row.name })

/- The report's status is the camera's from now on. -/
def setPrevious
    (known : List Known)
    (update : CameraStatusReport) : List Known :=
  known.map (fun camera =>
    if camera.cameraId == update.cameraId then
      { camera with status := some update.status }
    else
      camera)

/- The transition a report announces, given what is known. -/
def announces
    (known : List Known)
    (update : CameraStatusReport) : Option CameraTransition :=
  (known.find? (·.cameraId == update.cameraId)).bind
    (fun camera =>
      (cameraTransition camera.status update.status).map
        (fun direction =>
          { cameraId := update.cameraId
            displayName :=
              displayName camera.name update.cameraId
            direction := direction }))

def httpLoop
    (node now : Int) :
    List Known → List CameraRow → List CameraStatusReport →
      List CameraRow × List CameraTransition
| _, rows, [] => (rows, [])
| known, rows, update :: rest =>
    match known.find? (·.cameraId == update.cameraId) with
    | none => httpLoop node now known rows rest
    | some _ =>
        let lastError :=
          if keepsError update.status then
            update.lastError
          else
            none
        let next :=
          httpLoop node now (setPrevious known update)
            (updateCamera rows node update.cameraId
              update.status now lastError)
            rest
        (next.1, (announces known update).toList ++ next.2)

/- The rows after `node_heartbeat`, and what it announces. -/
def nodeHeartbeat
    (rows : List CameraRow)
    (node now : Int)
    (updates : List CameraStatusReport) :
    List CameraRow × List CameraTransition :=
  if updates.isEmpty then
    (rows, [])
  else
    httpLoop node now
      (knownCameras rows node
        (updates.map CameraStatusReport.cameraId))
      rows updates

--------------------
-- Over the WebSocket
--------------------

/- The texts of an entry of the payload's `cameras`. -/
structure WsCamera where
  cameraId : Option String
  status : Option String
  lastError : Option String
  deriving DecidableEq, Repr

/- A report as the payload has it. -/
def CameraStatusReport.entry
    (report : CameraStatusReport) : WsCamera where
  cameraId := some report.cameraId
  status := some report.status
  lastError := report.lastError

structure WsKnown where
  cameraId : String
  status : String
  name : String
  deriving DecidableEq, Repr

/- The status is read as a text: a NULL fails the read. -/
def decodeKnown : List Known → Option (List WsKnown)
| [] => some []
| camera :: rest =>
    match camera.status, decodeKnown rest with
    | some status, some decoded =>
        some
          ({ cameraId := camera.cameraId
             status := status
             name := camera.name } :: decoded)
    | _, _ => none

def wsLoop
    (node now : Int)
    (known : List WsKnown) :
    List CameraRow → List WsCamera →
      List CameraRow × List CameraTransition
| rows, [] => (rows, [])
| rows, camera :: rest =>
    match camera.cameraId with
    | none => wsLoop node now known rows rest
    | some cameraId =>
        match known.find? (·.cameraId == cameraId) with
        | none => wsLoop node now known rows rest
        | some row =>
            let newStatus := camera.status.getD "online"
            let lastError :=
              if keepsError newStatus then
                camera.lastError
              else
                none
            let next :=
              wsLoop node now known
                (updateCamera rows node cameraId newStatus now
                  lastError)
                rest
            let transition :=
              (cameraTransition (some row.status) newStatus).map
                (fun direction =>
                  ({ cameraId := cameraId
                     displayName :=
                       displayName row.name cameraId
                     direction := direction } :
                    CameraTransition))
            (next.1, transition.toList ++ next.2)

/- The rows after `handle_heartbeat`, and its transitions. -/
def handleHeartbeat
    (rows : List CameraRow)
    (node now : Int)
    (cameras : List WsCamera) :
    List CameraRow × List CameraTransition :=
  match
    decodeKnown
      (knownCameras rows node
        (cameras.filterMap WsCamera.cameraId)) with
  | none => (rows, [])
  | some known => wsLoop node now known rows cameras

end Heartbeat

end SentinelCommand
