import SentinelCommand.Hls.AuthRules
import SentinelCommand.Hls.LiveCache

/-
  Pushes, and the requests that delete cameras, as threads
  over the auth cache and the live caches.

  A deletion empties a camera's maps one lock at a time,
  deletes its row and then invalidates the auth cache. A
  push is authorised first and writes later. The state also
  notes which maps a deletion has emptied, which version
  first lacks a row, and which deletions have finished.

  Key definitions include:
    * `Hls.LiveState`
    * `Hls.cleanupCamera`
    * `Hls.removeCameras`
-/

--------------------
-- State
--------------------

namespace SentinelCommand

namespace Hls

open Interleaving

structure LiveState where
  live : Live
  emptied : List (String × Kind)
  deleted : List (String × Nat)
  finished : List String

def LiveState.empty : LiveState where
  live := Live.empty
  emptied := []
  deleted := []
  finished := []

/-
  The write of a push is labelled with its camera and map,
  and with what had been invalidated when the push began.
-/
inductive LiveLabel where
  | quiet
  | write
      (cameraId : String)
      (kind : Kind)
      (before : List Invalidation)
  deriving DecidableEq, Repr

abbrev LiveProgram : Type :=
  Program LiveState LiveLabel

/- One locked step on the live caches. -/
def onLive
    {α : Type}
    (label : LiveLabel)
    (f : Shared LiveState → Live × α)
    (next : α → LiveProgram) : LiveProgram :=
  atomic label
    (fun s =>
      ({ s with rest := { s.rest with live := (f s).1 } },
        (f s).2))
    next

--------------------
-- Deletions
--------------------

/- A locked step of a cleanup that empties one map. -/
def emptyMap
    (cameraId : String)
    (kind : Kind)
    (drop : Live → String → Live)
    (next : LiveProgram) : LiveProgram :=
  atomic .quiet
    (fun s =>
      ({ s with
          rest :=
            { s.rest with
              live := drop s.rest.live cameraId
              emptied :=
                s.rest.emptied ++ [(cameraId, kind)] } },
        ()))
    (fun _ => next)

def cleanupCamera
    (cameraId : String)
    (next : LiveProgram) : LiveProgram :=
  emptyMap cameraId .segments dropSegments
    (emptyMap cameraId .playlist dropPlaylist
      (emptyMap cameraId .updates dropUpdates
        (onLive .quiet
          (fun s =>
            (dropPlaylistLogged s.rest.live cameraId, ()))
          (fun _ =>
            onLive .quiet
              (fun s =>
                (dropStreamGetLogged s.rest.live cameraId,
                  ()))
              (fun _ => next)))))

def cleanupAll : List String → LiveProgram → LiveProgram
| [], next => next
| cameraId :: rest, next =>
    cleanupCamera cameraId (cleanupAll rest next)

/- The rows both filters keep. -/
def Db.keep
    (db : Db)
    (node : NodeRow → Bool)
    (camera : CameraRow → Bool) : Db where
  cameraNodes := db.cameraNodes.filter node
  cameras := db.cameras.filter camera
  unique :=
    db.unique.sublist
      (List.Sublist.map CameraRow.cameraId List.filter_sublist)

def Db.hasCamera
    (db : Db)
    (cameraId : String) : Bool :=
  db.cameras.any (·.cameraId == cameraId)

/-
  The commit of a deletion. It notes, for each of its
  cameras that has no row any more, the version it made.
-/
def deleteRows
    (cameraIds : List String)
    (change : Db → Db)
    (next : Nat → LiveProgram) : LiveProgram :=
  atomic .quiet
    (fun s =>
      ({ s.committed (change s.db) with
          rest :=
            { s.rest with
              deleted := s.rest.deleted ++
                (cameraIds.filter
                  (fun id => !(change s.db).hasCamera id)).map
                  (fun id => (id, s.commits + 1)) } },
        s.commits + 1))
    next

def finish
    (cameraIds : List String)
    (next : LiveProgram) : LiveProgram :=
  atomic .quiet
    (fun s =>
      ({ s with
          rest :=
            { s.rest with
              finished := s.rest.finished ++ cameraIds } },
        ()))
    (fun _ => next)

/- The caches go first, then the rows, then the answers. -/
def removeCameras
    (cameraIds : List String)
    (change : Db → Db)
    (next : LiveProgram) : LiveProgram :=
  cleanupAll cameraIds
    (deleteRows cameraIds change
      (fun committed =>
        invalidateAuthCache .quiet committed
          (finish cameraIds next)))

/- The camera ids a filter selects. -/
def cameraIdsWhere
    (camera : CameraRow → Bool)
    (db : Db) : List String :=
  (db.cameras.filter camera).map CameraRow.cameraId

def onNode (pk : Int) (row : CameraRow) : Bool :=
  row.nodePk == some pk

/- DELETE of a node and of the cameras on it. -/
def deleteNodeRows (pk : Int) (db : Db) : Db :=
  db.keep (·.pk ≠ pk) (fun row => !onNode pk row)

/- What `delete_org_data` deletes of these two tables. -/
def deleteOrgRows (orgId : String) (db : Db) : Db :=
  db.keep (·.orgId ≠ orgId)
    (fun row =>
      !(row.orgId == orgId ||
        db.cameraNodes.any
          (fun node =>
            node.orgId == orgId &&
              row.nodePk == some node.pk)))

def deleteNode (nodeId orgId : String) : LiveProgram :=
  query .quiet
    (fun db =>
      db.cameraNodes.find?
        (fun node =>
          node.nodeId == nodeId && node.orgId == orgId))
    (fun node _ =>
      match node with
      | none => .done
      | some node =>
          query .quiet (cameraIdsWhere (onNode node.pk))
            (fun cameraIds _ =>
              removeCameras cameraIds (deleteNodeRows node.pk)
                .done))

/- The node's own removal commits its two deletes apart. -/
def decommissionSelf (keyHash : String) : LiveProgram :=
  query .quiet
    (fun db =>
      db.cameraNodes.find? (·.apiKeyHash == keyHash))
    (fun node _ =>
      match node with
      | none => .done
      | some node =>
          query .quiet (cameraIdsWhere (onNode node.pk))
            (fun cameraIds _ =>
              cleanupAll cameraIds
                (deleteRows cameraIds
                  (fun db =>
                    db.keep (fun _ => true)
                      (fun row => !onNode node.pk row))
                  (fun _ =>
                    deleteRows []
                      (fun db =>
                        db.keep (·.pk ≠ node.pk)
                          (fun _ => true))
                      (fun committed =>
                        invalidateAuthCache .quiet committed
                          (finish cameraIds .done))))))

/- One stale camera after the other, a commit each. -/
def removeStaleCameras : List String → LiveProgram
| [] => .done
| cameraId :: rest =>
    removeCameras [cameraId]
      (fun db =>
        db.keep (fun _ => true) (·.cameraId ≠ cameraId))
      (removeStaleCameras rest)

def registerNode
    (nodePk : Int)
    (reported : List String) : LiveProgram :=
  query .quiet (cameraIdsWhere (onNode nodePk))
    (fun cameraIds _ =>
      removeStaleCameras
        (cameraIds.filter (fun id => !reported.contains id)))

def eraseOrg (orgId : String) : LiveProgram :=
  query .quiet (cameraIdsWhere (·.orgId == orgId))
    (fun cameraIds _ =>
      removeCameras cameraIds (deleteOrgRows orgId) .done)

--------------------
-- Pushes and sweeps
--------------------

/- The sweep: a lock for the playlists, one for the segments. -/
def dropSwept : List String → LiveProgram → LiveProgram
| [], next => next
| cameraId :: rest, next =>
    onLive .quiet
      (fun s => (dropPlaylist s.rest.live cameraId, ()))
      (fun _ =>
        onLive .quiet
          (fun s => (dropUpdates s.rest.live cameraId, ()))
          (fun _ =>
            onLive .quiet
              (fun s =>
                (dropPlaylistLogged s.rest.live cameraId, ()))
              (fun _ =>
                onLive .quiet
                  (fun s =>
                    (dropStreamGetLogged s.rest.live cameraId,
                      ()))
                  (fun _ => dropSwept rest next))))

def evictCaches (next : LiveProgram) : LiveProgram :=
  onLive .quiet (fun s => (evictPlaylists s.rest.live, ()))
    (fun _ =>
      onLive .quiet
        (fun s =>
          (evictStaleSegments s.rest.live s.clock,
            staleCameras s.rest.live.segments s.clock))
        (fun stale => dropSwept stale next))

/-
  A push notes what has been invalidated when it begins.
  `accepted` is whether its name and its body pass the
  checks that come after its camera is known.
-/
def pushSegmentRoute
    (id : Nat)
    (keyHash : Option String)
    (cameraId filename : String)
    (body : List UInt8)
    (accepted : Bool)
    (caps : Caps) : LiveProgram :=
  atomic .quiet (fun s => (s, s.returned))
    (fun before =>
      resolvePushTarget id .quiet keyHash cameraId
        (fun target =>
          match target with
          | .error _ => .done
          | .ok target =>
              if target.disabledByPlan || !accepted then
                .done
              else
                onLive (.write cameraId .segments before)
                  (fun s =>
                    ({ s.rest.live with
                        segments :=
                          pushSegment s.rest.live.segments
                            cameraId filename body s.clock
                            caps },
                      ()))
                  (fun _ => .done)))

def updateHlsPlaylist
    (id : Nat)
    (keyHash : Option String)
    (cameraId playlist : String)
    (accepted : Bool)
    (cleanupInterval : Nat) : LiveProgram :=
  atomic .quiet (fun s => (s, s.returned))
    (fun before =>
      resolvePushTarget id .quiet keyHash cameraId
        (fun target =>
          match target with
          | .error _ => .done
          | .ok _ =>
              if !accepted then
                .done
              else
                onLive (.write cameraId .playlist before)
                  (fun s =>
                    (setPlaylist s.rest.live cameraId playlist
                      s.clock, ()))
                  (fun _ =>
                    onLive .quiet
                      (fun s =>
                        (firstPlaylistPush s.rest.live
                          cameraId, ()))
                      (fun _ =>
                        onLive
                          (.write cameraId .updates before)
                          (fun s =>
                            bumpPlaylistCount s.rest.live
                              cameraId cleanupInterval)
                          (fun due =>
                            if due then evictCaches .done
                            else .done)))))

inductive LiveTask where
  | pushSegment
      (keyHash : Option String)
      (cameraId filename : String)
      (body : List UInt8)
      (accepted : Bool)
      (caps : Caps)
  | updatePlaylist
      (keyHash : Option String)
      (cameraId playlist : String)
      (accepted : Bool)
      (cleanupInterval : Nat)
  | deleteNode (nodeId orgId : String)
  | decommission (keyHash : String)
  | registerNode (nodePk : Int) (reported : List String)
  | eraseOrg (orgId : String)
  | sweep
  | wait (time : Nat)
  deriving DecidableEq, Repr

def startLive
    (task : LiveTask)
    (id : Nat) : LiveProgram :=
  match task with
  | .pushSegment keyHash cameraId filename body accepted
      caps =>
      pushSegmentRoute id keyHash cameraId filename body
        accepted caps
  | .updatePlaylist keyHash cameraId playlist accepted
      interval =>
      updateHlsPlaylist id keyHash cameraId playlist accepted
        interval
  | .deleteNode nodeId orgId => deleteNode nodeId orgId
  | .decommission keyHash => decommissionSelf keyHash
  | .registerNode nodePk reported =>
      registerNode nodePk reported
  | .eraseOrg orgId => eraseOrg orgId
  | .sweep => evictCaches .done
  | .wait time =>
      atomic .quiet
        (fun s => ({ s with clock := s.clock + time }, ()))
        (fun _ => .done)

end Hls

end SentinelCommand
