import Mathlib.Data.List.AList
import SentinelCommand.Lib.Interleaving

/-
  The auth cache of `hls.rs`, and the requests that use it,
  as threads over shared state.

  Beside what the program holds, the shared state keeps the
  past versions of the database, so that a value can be
  compared with the version it was read from: every commit
  makes a new version, and a cached entry carries the number
  of the one its query saw. The generation is a natural
  number; a 64-bit counter would take 2^64 writes to wrap.

  Key definitions include:
    * `Hls.AuthCache`, `Hls.AuthCache.sync`, `Hls.put`
    * `Hls.Shared`
    * `Hls.cachedPushNode`, `Hls.cachePushNode`
-/

--------------------
-- Tables
--------------------

namespace SentinelCommand

namespace Hls

open Interleaving

/- A `camera_nodes` row. -/
structure NodeRow where
  pk : Int
  orgId : String
  nodeId : String
  apiKeyHash : String
  deriving DecidableEq, Repr

/- A `cameras` row. -/
structure CameraRow where
  cameraId : String
  nodePk : Option Int
  orgId : String
  name : String
  disabledByPlan : Bool
  deriving DecidableEq, Repr

/- Camera ids have a unique index. -/
structure Db where
  cameraNodes : List NodeRow
  cameras : List CameraRow
  unique : (cameras.map CameraRow.cameraId).Nodup
  deriving DecidableEq

structure PushNode where
  pk : Int
  orgId : String
  nodeId : String
  deriving DecidableEq, Repr

structure PushCamera where
  name : String
  disabledByPlan : Bool
  deriving DecidableEq, Repr

/- The node a push key belongs to. -/
def selectPushNode
    (db : Db)
    (keyHash : String) : Option PushNode :=
  (db.cameraNodes.find? (·.apiKeyHash == keyHash)).map
    (fun row =>
      { pk := row.pk
        orgId := row.orgId
        nodeId := row.nodeId })

def isPushCamera
    (pk : Int)
    (orgId cameraId : String)
    (row : CameraRow) : Bool :=
  row.cameraId == cameraId && row.nodePk == some pk &&
    row.orgId == orgId

/- The camera a push names. -/
def selectPushCamera
    (db : Db)
    (pk : Int)
    (orgId cameraId : String) : Option PushCamera :=
  (db.cameras.find? (isPushCamera pk orgId cameraId)).map
    (fun row =>
      { name := row.name
        disabledByPlan := row.disabledByPlan })

/- The node of a camera the org can view, if it has one. -/
def selectViewable
    (db : Db)
    (orgId cameraId : String) : Option (Option String) :=
  (db.cameras.find?
    (fun row =>
      row.cameraId == cameraId && row.orgId == orgId)).map
    (fun row =>
      (db.cameraNodes.find?
        (fun node => row.nodePk == some node.pk)).map
        NodeRow.nodeId)

end Hls

--------------------
-- The cache
--------------------

namespace Hls

/-
  A cached value, when it was inserted, and the version of
  the database it was read from.
-/
structure Entry (V : Type) where
  value : V
  storedAt : Nat
  readAt : Nat
  deriving DecidableEq, Repr

abbrev Table (K V : Type) : Type :=
  AList (fun _ : K => Entry V)

structure AuthCache where
  generation : Nat
  nodes : Table String PushNode
  cameras : Table (Int × String) PushCamera
  viewable : Table (String × String) String

/- `AuthCache::default()`. -/
def AuthCache.empty : AuthCache where
  generation := 0
  nodes := ∅
  cameras := ∅
  viewable := ∅

/- Empty the maps if anything was invalidated. -/
def AuthCache.sync
    (cache : AuthCache)
    (now : Nat) : AuthCache :=
  if cache.generation ≠ now then
    { AuthCache.empty with generation := now }
  else
    cache

def authCacheMaxEntries : Nat :=
  10000

/- Insert unless the world moved on since `seen` was read. -/
def put
    {K V : Type}
    [DecidableEq K]
    (ttl current seen : Nat)
    (table : Table K V)
    (key : K)
    (entry : Entry V) : Table K V :=
  if seen ≠ current ∨ ttl = 0 then
    table
  else if authCacheMaxEntries ≤ table.keys.length then
    AList.insert key entry ∅
  else
    table.insert key entry

/- The entry of a key, while it is younger than the TTL. -/
def get
    {K V : Type}
    [DecidableEq K]
    (ttl clock : Nat)
    (table : Table K V)
    (key : K) : Option (Entry V) :=
  (table.lookup key).filter
    (fun entry => clock - entry.storedAt < ttl)

end Hls

--------------------
-- Shared state
--------------------

namespace Hls

/-
  A write whose invalidation has returned: the version its
  commit made and the generation it left.
-/
structure Invalidation where
  commit : Nat
  generation : Nat
  deriving DecidableEq, Repr

/- A value a lookup yielded, with its key. -/
inductive Fact where
  | node (keyHash : String) (node : PushNode)
  | camera (nodePk : Int) (cameraId : String)
      (camera : PushCamera)
  | viewable (orgId cameraId nodeId : String)
  deriving DecidableEq, Repr

/-
  What a lookup yielded: the invalidations that had returned
  when it began, its value, and the version that was read.
-/
structure Answer where
  before : List Invalidation
  fact : Fact
  readAt : Nat
  deriving DecidableEq, Repr

/-
  `holder` is the thread in the cache's mutex; `rest` is
  what a system keeps beside the cache.
-/
structure Shared (X : Type) where
  generation : Nat
  holder : Option Nat
  cache : AuthCache
  ttl : Nat
  clock : Nat
  versions : Nat → Db
  commits : Nat
  returned : List Invalidation
  answers : List Answer
  rest : X

variable {X Label : Type}

def Shared.db (s : Shared X) : Db :=
  s.versions s.commits

/- A process that has just started on a database. -/
def Shared.initial
    (ttl : Nat)
    (db : Db)
    (rest : X) : Shared X where
  generation := 0
  holder := none
  cache := AuthCache.empty
  ttl := ttl
  clock := 0
  versions := fun _ => db
  commits := 0
  returned := []
  answers := []
  rest := rest

end Hls

--------------------
-- Operations of the cache
--------------------

namespace Hls

open Interleaving

variable {X Label α : Type}

abbrev Program (X Label : Type) : Type :=
  Thread (Shared X) Label

/- `auth_generation()`: one atomic load. -/
def authGeneration
    (label : Label)
    (next : Nat → Program X Label) : Program X Label :=
  atomic label (fun s => (s, s.generation)) next

/- What an operation leaves and what it returns. -/
structure Outcome (α : Type) where
  cache : AuthCache
  answers : List Answer
  result : α

/-
  An operation under the mutex: lock, load the generation,
  sync with it, then the operation's own part and unlock.
-/
def withCache
    (id : Nat)
    (label : Label)
    (body : Shared X → Outcome α)
    (next : α → Program X Label) : Program X Label :=
  await label
    (fun s => s.holder == none)
    (fun s => { s with holder := some id })
    (authGeneration label
      (fun now =>
        atomic label
          (fun s => ({ s with cache := s.cache.sync now }, ()))
          (fun _ =>
            atomic label
              (fun s =>
                ({ s with
                    holder := none
                    cache := (body s).cache
                    answers := (body s).answers },
                  (body s).result))
              next)))

/- The answer a hit gives, noted. -/
def noteAnswer
    {V : Type}
    (before : List Invalidation)
    (fact : V → Fact) :
    Option (Entry V) → List Answer
| none => []
| some entry =>
    [{ before := before
       fact := fact entry.value
       readAt := entry.readAt }]

/-
  A lookup notes what had been invalidated when it began and
  what it yields.
-/
def lookup
    {K V : Type}
    [DecidableEq K]
    (table : AuthCache → Table K V)
    (fact : V → Fact)
    (id : Nat)
    (label : Label)
    (key : K)
    (next : Option (Entry V) → Program X Label) :
    Program X Label :=
  atomic label (fun s => (s, s.returned))
    (fun before =>
      withCache id label
        (fun s =>
          let found := get s.ttl s.clock (table s.cache) key
          { cache := s.cache
            answers :=
              s.answers ++ noteAnswer before fact found
            result := found })
        next)

/- Cache what a query read, tagged with `seen`. -/
def store
    {K V : Type}
    [DecidableEq K]
    (table : AuthCache → Table K V)
    (setTable : AuthCache → Table K V → AuthCache)
    (id : Nat)
    (label : Label)
    (seen : Nat)
    (key : K)
    (value : V)
    (readAt : Nat)
    (next : Program X Label) : Program X Label :=
  withCache id label
    (fun s =>
      { cache :=
          setTable s.cache
            (put s.ttl s.cache.generation seen (table s.cache)
              key
              { value := value
                storedAt := s.clock
                readAt := readAt })
        answers := s.answers
        result := () })
    (fun _ => next)

def cachedPushNode
    (id : Nat)
    (label : Label)
    (keyHash : String)
    (next : Option (Entry PushNode) → Program X Label) :
    Program X Label :=
  lookup AuthCache.nodes (Fact.node keyHash) id label keyHash
    next

def cachedPushCamera
    (id : Nat)
    (label : Label)
    (nodePk : Int)
    (cameraId : String)
    (next : Option (Entry PushCamera) → Program X Label) :
    Program X Label :=
  lookup AuthCache.cameras (Fact.camera nodePk cameraId)
    id label (nodePk, cameraId) next

def cachedViewable
    (id : Nat)
    (label : Label)
    (orgId cameraId : String)
    (next : Option (Entry String) → Program X Label) :
    Program X Label :=
  lookup AuthCache.viewable (Fact.viewable orgId cameraId)
    id label (orgId, cameraId) next

def cachePushNode
    (id : Nat)
    (label : Label)
    (seen : Nat)
    (keyHash : String)
    (node : PushNode)
    (readAt : Nat)
    (next : Program X Label) : Program X Label :=
  store AuthCache.nodes
    (fun cache table => { cache with nodes := table })
    id label seen keyHash node readAt next

def cachePushCamera
    (id : Nat)
    (label : Label)
    (seen : Nat)
    (nodePk : Int)
    (cameraId : String)
    (camera : PushCamera)
    (readAt : Nat)
    (next : Program X Label) : Program X Label :=
  store AuthCache.cameras
    (fun cache table => { cache with cameras := table })
    id label seen (nodePk, cameraId) camera readAt next

def cacheViewable
    (id : Nat)
    (label : Label)
    (seen : Nat)
    (orgId cameraId nodeId : String)
    (readAt : Nat)
    (next : Program X Label) : Program X Label :=
  store AuthCache.viewable
    (fun cache table => { cache with viewable := table })
    id label seen (orgId, cameraId) nodeId readAt next

end Hls

--------------------
-- Database access
--------------------

namespace Hls

open Interleaving

variable {X Label α : Type}

/- One query, with the number of the version it saw. -/
def query
    (label : Label)
    (select : Db → α)
    (next : α → Nat → Program X Label) : Program X Label :=
  atomic label (fun s => (s, (select s.db, s.commits)))
    (fun result => next result.1 result.2)

/- The state after a commit: one more version. -/
def Shared.committed
    (s : Shared X)
    (db : Db) : Shared X :=
  { s with
    versions := Function.update s.versions (s.commits + 1) db
    commits := s.commits + 1 }

/- A committed write; it learns the version it made. -/
def commit
    (label : Label)
    (write : Db → Db)
    (next : Nat → Program X Label) : Program X Label :=
  atomic label
    (fun s => (s.committed (write s.db), s.commits + 1))
    next

/- The state after the invalidation of a commit. -/
def Shared.invalidated
    (s : Shared X)
    (committed : Nat) : Shared X :=
  { s with
    generation := s.generation + 1
    returned := s.returned ++
      [{ commit := committed
         generation := s.generation + 1 }] }

/- `invalidate_auth_cache()`: one atomic add. -/
def invalidateAuthCache
    (label : Label)
    (committed : Nat)
    (next : Program X Label) : Program X Label :=
  atomic label (fun s => (s.invalidated committed, ()))
    (fun _ => next)

end Hls

--------------------
-- The requests
--------------------

namespace Hls

open Interleaving

variable {X Label α : Type}

/- The answers a push can be refused with. -/
inductive PushError where
  | missingKey
  | invalidKey
  | cameraNotFound
  deriving DecidableEq, Repr

def PushError.message : PushError → String
| .missingKey => "Missing API key"
| .invalidKey => "Invalid API key"
| .cameraNotFound => "Camera not found"

/-
  What a push is authorised as. `readAt` is the version its
  camera was read from.
-/
structure PushTarget where
  orgId : String
  nodeId : String
  cameraName : String
  disabledByPlan : Bool
  readAt : Nat
  deriving DecidableEq, Repr

/- The second half: the camera of a known node. -/
def resolvePushCamera
    (id : Nat)
    (label : Label)
    (node : PushNode)
    (cameraId : String)
    (next : Except PushError PushTarget → Program X Label) :
    Program X Label :=
  let target
      (camera : PushCamera)
      (readAt : Nat) : PushTarget :=
    { orgId := node.orgId
      nodeId := node.nodeId
      cameraName := camera.name
      disabledByPlan := camera.disabledByPlan
      readAt := readAt }
  cachedPushCamera id label node.pk cameraId
    (fun cached =>
      match cached with
      | some entry => next (.ok (target entry.value entry.readAt))
      | none =>
          authGeneration label
            (fun seen =>
              query label
                (fun db =>
                  selectPushCamera db node.pk node.orgId
                    cameraId)
                (fun row readAt =>
                  match row with
                  | none => next (.error .cameraNotFound)
                  | some camera =>
                      cachePushCamera id label seen node.pk
                        cameraId camera readAt
                        (next (.ok (target camera readAt))))))

def resolvePushTarget
    (id : Nat)
    (label : Label)
    (keyHash : Option String)
    (cameraId : String)
    (next : Except PushError PushTarget → Program X Label) :
    Program X Label :=
  match keyHash with
  | none => next (.error .missingKey)
  | some keyHash =>
      cachedPushNode id label keyHash
        (fun cached =>
          match cached with
          | some entry =>
              resolvePushCamera id label entry.value cameraId
                next
          | none =>
              authGeneration label
                (fun seen =>
                  query label
                    (fun db => selectPushNode db keyHash)
                    (fun row readAt =>
                      match row with
                      | none => next (.error .invalidKey)
                      | some node =>
                          cachePushNode id label seen keyHash
                            node readAt
                            (resolvePushCamera id label node
                              cameraId next))))

/- The answers a viewer can be refused with. -/
inductive ViewError where
  | cameraNotFound
  | nodeNotFound
  deriving DecidableEq, Repr

def ViewError.message : ViewError → String
| .cameraNotFound => "Camera not found"
| .nodeNotFound => "Camera node not found"

def viewableCameraNode
    (id : Nat)
    (label : Label)
    (orgId cameraId : String)
    (next : Except ViewError String → Program X Label) :
    Program X Label :=
  cachedViewable id label orgId cameraId
    (fun cached =>
      match cached with
      | some entry => next (.ok entry.value)
      | none =>
          authGeneration label
            (fun seen =>
              query label
                (fun db => selectViewable db orgId cameraId)
                (fun row readAt =>
                  match row with
                  | none => next (.error .cameraNotFound)
                  | some nodeId =>
                      match nodeId.filter (· ≠ "") with
                      | none => next (.error .nodeNotFound)
                      | some nodeId =>
                          cacheViewable id label seen orgId
                            cameraId nodeId readAt
                            (next (.ok nodeId)))))

end Hls

end SentinelCommand
