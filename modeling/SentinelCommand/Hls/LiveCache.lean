import Mathlib.Algebra.Ring.Int.Defs
import Mathlib.Data.List.AList
import Mathlib.Data.List.Sort

/-
  What `HlsCache` holds for the live cameras: segments,
  playlists and playlist counters.

  Sizes and timestamps are natural numbers, and the low-water
  mark, a floating-point product in the program, is a
  parameter of the store's caps.

  Key definitions include:
    * `Hls.Live`
    * `Hls.pushSegment`, `Hls.setPlaylist`

  Key theorems include:
    * `Hls.absent_pushSegment`
    * `Hls.mem_evictGlobalOldest`
-/

--------------------
-- Segment names
--------------------

namespace SentinelCommand

namespace Hls

/- The digits after `segment_`, without leading zeros. -/
def sequence (filename : String) : List Char :=
  let head := "segment_".toList
  let digits :=
    if head.isPrefixOf filename.toList then
      filename.toList.drop head.length
    else
      filename.toList
  (digits.takeWhile Char.isDigit).dropWhile (· == '0')

/- Shorter sequences first, then by digits, then by name. -/
def segmentBefore (a b : String) : Bool :=
  let x := sequence a
  let y := sequence b
  x.length < y.length ||
    x.length == y.length &&
      (String.ofList x < String.ofList y || x == y && a < b)

--------------------
-- The store
--------------------

structure Segment where
  filename : String
  body : List UInt8
  storedAt : Nat
  deriving DecidableEq, Repr

/- A camera's segments, in sequence order. -/
abbrev Bucket : Type :=
  List Segment

structure SegmentStore where
  cameras : AList (fun _ : String => Bucket)
  byteTotal : Int

/- The configured caps of the store. -/
structure Caps where
  maxPerCamera : Nat
  maxTotalBytes : Int
  lowWater : Int
  deriving DecidableEq, Repr

def bytes (bucket : Bucket) : Int :=
  (bucket.map (fun segment => (segment.body.length : Int))).sum

/- `BTreeMap::insert`: one segment of a name. -/
def insertSegment (new : Segment) : Bucket → Bucket
| [] => [new]
| old :: rest =>
    if old.filename = new.filename then
      new :: rest
    else if segmentBefore new.filename old.filename then
      new :: old :: rest
    else
      old :: insertSegment new rest

def evictPerCamera
    (store : SegmentStore)
    (cameraId : String)
    (maxPerCamera : Nat) : SegmentStore :=
  match store.cameras.lookup cameraId with
  | none => store
  | some bucket =>
      if bucket.length ≤ maxPerCamera then
        store
      else
        let dropCount := bucket.length - maxPerCamera
        { cameras :=
            store.cameras.insert cameraId
              (bucket.drop dropCount)
          byteTotal :=
            store.byteTotal - bytes (bucket.take dropCount) }

/- A segment that may be evicted, with its camera. -/
structure Candidate where
  cameraId : String
  segment : Segment
  deriving DecidableEq, Repr

/- Oldest first, then by camera, name and size. -/
def Candidate.before (a b : Candidate) : Bool :=
  let x := a.segment
  let y := b.segment
  x.storedAt < y.storedAt ||
    x.storedAt == y.storedAt &&
      (a.cameraId < b.cameraId ||
        a.cameraId == b.cameraId &&
          (segmentBefore x.filename y.filename ||
            x.filename == y.filename &&
              x.body.length ≤ y.body.length))

def candidates (store : SegmentStore) : List Candidate :=
  (store.cameras.entries.flatMap
    (fun entry =>
      entry.2.map
        (fun segment =>
          { cameraId := entry.1, segment := segment }))
  ).insertionSort (fun a b => Candidate.before a b = true)

/- Remove one candidate, and its bucket when that empties. -/
def evictCandidate
    (store : SegmentStore)
    (victim : Candidate) : SegmentStore :=
  match store.cameras.lookup victim.cameraId with
  | none => store
  | some bucket =>
      let left :=
        bucket.filter
          (·.filename ≠ victim.segment.filename)
      { cameras :=
          if left.isEmpty then
            store.cameras.erase victim.cameraId
          else
            store.cameras.insert victim.cameraId left
        byteTotal :=
          if left.length < bucket.length then
            store.byteTotal - victim.segment.body.length
          else
            store.byteTotal }

/- Evict in order until the total is down to the mark. -/
def evictUntil
    (lowWater : Int) :
    SegmentStore → List Candidate → SegmentStore
| store, [] => store
| store, victim :: rest =>
    if store.byteTotal ≤ lowWater then
      store
    else
      evictUntil lowWater (evictCandidate store victim) rest

def evictGlobalOldest
    (store : SegmentStore)
    (caps : Caps) : SegmentStore :=
  if store.byteTotal ≤ caps.maxTotalBytes then
    store
  else
    evictUntil caps.lowWater store (candidates store)

/- A re-push of a name takes the old size off the total. -/
def insertPushed
    (store : SegmentStore)
    (cameraId : String)
    (new : Segment) : SegmentStore :=
  let bucket := (store.cameras.lookup cameraId).getD []
  let old := bucket.find? (·.filename == new.filename)
  { cameras :=
      store.cameras.insert cameraId
        (insertSegment new bucket)
    byteTotal :=
      store.byteTotal + new.body.length -
        (old.map (fun segment => segment.body.length)).getD 0 }

/- The stored segment and both eviction passes. -/
def pushSegment
    (store : SegmentStore)
    (cameraId filename : String)
    (body : List UInt8)
    (now : Nat)
    (caps : Caps) : SegmentStore :=
  evictGlobalOldest
    (evictPerCamera
      (insertPushed store cameraId
        { filename := filename, body := body
          storedAt := now })
      cameraId caps.maxPerCamera)
    caps

--------------------
-- Playlists and sweeps
--------------------

/-
  The maps of `HlsCache` that are kept by camera, and the
  two sets of cameras whose first lines were logged.
-/
structure Live where
  segments : SegmentStore
  playlists : AList (fun _ : String => String × Nat)
  playlistUpdates : AList (fun _ : String => Nat)
  firstPlaylistLogged : List String
  firstStreamGetLogged : List String

def Live.empty : Live where
  segments := { cameras := ∅, byteTotal := 0 }
  playlists := ∅
  playlistUpdates := ∅
  firstPlaylistLogged := []
  firstStreamGetLogged := []

def setPlaylist
    (live : Live)
    (cameraId playlist : String)
    (now : Nat) : Live :=
  { live with
    playlists :=
      live.playlists.insert cameraId (playlist, now) }

def firstPlaylistPush
    (live : Live)
    (cameraId : String) : Live :=
  if live.firstPlaylistLogged.contains cameraId then
    live
  else
    { live with
      firstPlaylistLogged :=
        cameraId :: live.firstPlaylistLogged }

/- Whether the sweep is due comes with the new counter. -/
def bumpPlaylistCount
    (live : Live)
    (cameraId : String)
    (interval : Nat) : Live × Bool :=
  let count :=
    (live.playlistUpdates.lookup cameraId).getD 0 + 1
  ({ live with
      playlistUpdates :=
        live.playlistUpdates.insert cameraId count },
    interval != 0 && count % interval == 0)

/- `remove` of each camera in turn. -/
def eraseAll
    {V : Type}
    (cameraIds : List String)
    (table : AList (fun _ : String => V)) :
    AList (fun _ : String => V) :=
  cameraIds.foldl (fun table id => table.erase id) table

def cacheMaxCameras : Nat :=
  500

/- The cameras with the oldest playlists, over the cap. -/
def excessPlaylists (live : Live) : List String :=
  let byAge :=
    live.playlists.entries.insertionSort
      (fun a b => a.2.2 ≤ b.2.2)
  (byAge.take (byAge.length - cacheMaxCameras)).map
    (fun entry => entry.1)

def evictPlaylists (live : Live) : Live :=
  { live with
    playlists := eraseAll (excessPlaylists live) live.playlists
    playlistUpdates :=
      eraseAll (excessPlaylists live) live.playlistUpdates }

/- `STALE_CAMERA_AGE`, in the clock's seconds. -/
def staleCameraAge : Nat :=
  60

/- Cameras without a segment younger than the age. -/
def staleCameras
    (store : SegmentStore)
    (now : Nat) : List String :=
  (store.cameras.entries.filter
    (fun entry =>
      entry.2.all
        (fun segment =>
          segment.storedAt + staleCameraAge < now))).map
    (fun entry => entry.1)

/- The total is counted again after the sweep. -/
def evictStaleSegments
    (live : Live)
    (now : Nat) : Live :=
  let left :=
    eraseAll (staleCameras live.segments now)
      live.segments.cameras
  { live with
    segments :=
      { cameras := left
        byteTotal :=
          (left.entries.map (fun entry => bytes entry.2)).sum } }

/- The five parts of `cleanup_camera`, a lock each. -/
def dropSegments (live : Live) (cameraId : String) : Live :=
  match live.segments.cameras.lookup cameraId with
  | none => live
  | some bucket =>
      { live with
        segments :=
          { cameras := live.segments.cameras.erase cameraId
            byteTotal :=
              live.segments.byteTotal - bytes bucket } }

def dropPlaylist (live : Live) (cameraId : String) : Live :=
  { live with playlists := live.playlists.erase cameraId }

def dropUpdates (live : Live) (cameraId : String) : Live :=
  { live with
    playlistUpdates := live.playlistUpdates.erase cameraId }

def dropPlaylistLogged
    (live : Live)
    (cameraId : String) : Live :=
  { live with
    firstPlaylistLogged :=
      live.firstPlaylistLogged.filter (· ≠ cameraId) }

def dropStreamGetLogged
    (live : Live)
    (cameraId : String) : Live :=
  { live with
    firstStreamGetLogged :=
      live.firstStreamGetLogged.filter (· ≠ cameraId) }

--------------------
-- What is held for a camera
--------------------

/- The three maps a camera's state is in. -/
inductive Kind where
  | segments
  | playlist
  | updates
  deriving DecidableEq, Repr

def Live.holds
    (live : Live)
    (cameraId : String) : Kind → Bool
| .segments => (live.segments.cameras.lookup cameraId).isSome
| .playlist => (live.playlists.lookup cameraId).isSome
| .updates => (live.playlistUpdates.lookup cameraId).isSome

/- A step that adds nothing, but where it is allowed to. -/
def AddsOnly
    (allowed : String → Kind → Prop)
    (before after : Live) : Prop :=
  ∀ cameraId kind, after.holds cameraId kind = true →
    before.holds cameraId kind = true ∨ allowed cameraId kind

theorem holds_iff_mem
    {V : Type}
    {cameraId : String}
    {table : AList (fun _ : String => V)} :
    (table.lookup cameraId).isSome = true ↔
      cameraId ∈ table :=
  AList.lookup_isSome

/- A table that is there was there before its update. -/
theorem mem_of_mem_insert_found
    {V : Type}
    {cameraId other : String}
    {table : AList (fun _ : String => V)}
    {old new : V}
    (hFound : table.lookup cameraId = some old)
    (hMem : other ∈ table.insert cameraId new) :
    other ∈ table := by
  rcases (AList.mem_insert table).mp hMem with hSame | hOld
  · subst hSame
    rw [← AList.lookup_isSome, hFound]
    rfl
  · exact hOld

theorem mem_evictPerCamera
    {store : SegmentStore}
    {cameraId other : String}
    {maxPerCamera : Nat}
    (hMem :
      other ∈
        (evictPerCamera store cameraId maxPerCamera).cameras) :
    other ∈ store.cameras := by
  unfold evictPerCamera at hMem
  split at hMem
  · exact hMem
  · rename_i bucket hFound
    split at hMem
    · exact hMem
    · exact mem_of_mem_insert_found hFound hMem

theorem mem_evictCandidate
    {store : SegmentStore}
    {victim : Candidate}
    {other : String}
    (hMem :
      other ∈ (evictCandidate store victim).cameras) :
    other ∈ store.cameras := by
  unfold evictCandidate at hMem
  split at hMem
  · exact hMem
  · rename_i bucket hFound
    dsimp only at hMem
    split at hMem
    · exact (AList.mem_erase.mp hMem).2
    · exact mem_of_mem_insert_found hFound hMem

theorem mem_evictUntil
    {lowWater : Int}
    {store : SegmentStore}
    {victims : List Candidate}
    {other : String}
    (hMem :
      other ∈ (evictUntil lowWater store victims).cameras) :
    other ∈ store.cameras := by
  induction victims generalizing store with
  | nil => exact hMem
  | cons victim rest ih =>
      unfold evictUntil at hMem
      split at hMem
      · exact hMem
      · exact mem_evictCandidate (ih hMem)

theorem mem_evictGlobalOldest
    {store : SegmentStore}
    {caps : Caps}
    {other : String}
    (hMem : other ∈ (evictGlobalOldest store caps).cameras) :
    other ∈ store.cameras := by
  unfold evictGlobalOldest at hMem
  split at hMem
  · exact hMem
  · exact mem_evictUntil hMem

/- A push can add no bucket but its own camera's. -/
theorem absent_pushSegment
    {store : SegmentStore}
    {cameraId filename other : String}
    {body : List UInt8}
    {now : Nat}
    {caps : Caps}
    (hMem :
      other ∈
        (pushSegment store cameraId filename body now
          caps).cameras) :
    other = cameraId ∨ other ∈ store.cameras :=
  (AList.mem_insert _).mp
    (mem_evictPerCamera (mem_evictGlobalOldest hMem))

theorem mem_eraseAll
    {V : Type}
    {cameraIds : List String}
    {table : AList (fun _ : String => V)}
    {other : String}
    (hMem : other ∈ eraseAll cameraIds table) :
    other ∈ table := by
  induction cameraIds generalizing table with
  | nil => exact hMem
  | cons first rest ih =>
      exact (AList.mem_erase.mp (ih hMem)).2

--------------------
-- What each operation can add
--------------------

variable {live : Live}

/- Where one camera's map may gain. -/
def only
    (cameraId : String)
    (kind : Kind) : String → Kind → Prop :=
  fun other otherKind => other = cameraId ∧ otherKind = kind

theorem addsOnly_pushSegment
    (cameraId filename : String)
    (body : List UInt8)
    (now : Nat)
    (caps : Caps) :
    AddsOnly (only cameraId .segments) live
      { live with
        segments :=
          pushSegment live.segments cameraId filename body now
            caps } := by
  intro other kind hHolds
  cases kind with
  | playlist => exact Or.inl hHolds
  | updates => exact Or.inl hHolds
  | segments =>
      rcases absent_pushSegment (holds_iff_mem.mp hHolds) with
        hSame | hOld
      · exact Or.inr ⟨hSame, rfl⟩
      · exact Or.inl (holds_iff_mem.mpr hOld)

theorem addsOnly_setPlaylist
    (cameraId playlist : String)
    (now : Nat) :
    AddsOnly (only cameraId .playlist) live
      (setPlaylist live cameraId playlist now) := by
  intro other kind hHolds
  cases kind with
  | segments => exact Or.inl hHolds
  | updates => exact Or.inl hHolds
  | playlist =>
      rcases (AList.mem_insert _).mp
        (holds_iff_mem.mp hHolds) with hSame | hOld
      · exact Or.inr ⟨hSame, rfl⟩
      · exact Or.inl (holds_iff_mem.mpr hOld)

theorem addsOnly_bumpPlaylistCount
    (cameraId : String)
    (interval : Nat) :
    AddsOnly (only cameraId .updates) live
      (bumpPlaylistCount live cameraId interval).1 := by
  intro other kind hHolds
  cases kind with
  | segments => exact Or.inl hHolds
  | playlist => exact Or.inl hHolds
  | updates =>
      rcases (AList.mem_insert _).mp
        (holds_iff_mem.mp hHolds) with hSame | hOld
      · exact Or.inr ⟨hSame, rfl⟩
      · exact Or.inl (holds_iff_mem.mpr hOld)

/- Nothing is added anywhere. -/
abbrev AddsNothing (before after : Live) : Prop :=
  AddsOnly (fun _ _ => False) before after

theorem addsNothing_of_mem
    {before after : Live}
    (hSegments :
      ∀ id, id ∈ after.segments.cameras →
        id ∈ before.segments.cameras)
    (hPlaylists :
      ∀ id, id ∈ after.playlists → id ∈ before.playlists)
    (hUpdates :
      ∀ id, id ∈ after.playlistUpdates →
        id ∈ before.playlistUpdates) :
    AddsNothing before after := by
  intro other kind hHolds
  refine Or.inl ?_
  cases kind with
  | segments =>
      exact holds_iff_mem.mpr
        (hSegments other (holds_iff_mem.mp hHolds))
  | playlist =>
      exact holds_iff_mem.mpr
        (hPlaylists other (holds_iff_mem.mp hHolds))
  | updates =>
      exact holds_iff_mem.mpr
        (hUpdates other (holds_iff_mem.mp hHolds))

theorem addsNothing_erasePlaylists
    (cameraIds : List String) :
    AddsNothing live
      { live with
        playlists := eraseAll cameraIds live.playlists
        playlistUpdates :=
          eraseAll cameraIds live.playlistUpdates } :=
  addsNothing_of_mem (fun _ hMem => hMem)
    (fun _ hMem => mem_eraseAll hMem)
    (fun _ hMem => mem_eraseAll hMem)

theorem addsNothing_evictPlaylists :
    AddsNothing live (evictPlaylists live) :=
  addsNothing_erasePlaylists (excessPlaylists live)

theorem addsNothing_evictStaleSegments
    (now : Nat) :
    AddsNothing live (evictStaleSegments live now) :=
  addsNothing_of_mem (fun _ hMem => mem_eraseAll hMem)
    (fun _ hMem => hMem) (fun _ hMem => hMem)

theorem addsNothing_firstPlaylistPush
    (cameraId : String) :
    AddsNothing live (firstPlaylistPush live cameraId) := by
  unfold firstPlaylistPush
  split <;>
    exact addsNothing_of_mem (fun _ hMem => hMem)
      (fun _ hMem => hMem) (fun _ hMem => hMem)

theorem addsNothing_dropSegments
    (cameraId : String) :
    AddsNothing live (dropSegments live cameraId) := by
  unfold dropSegments
  split
  · exact addsNothing_of_mem (fun _ hMem => hMem)
      (fun _ hMem => hMem) (fun _ hMem => hMem)
  · exact addsNothing_of_mem
      (fun _ hMem => (AList.mem_erase.mp hMem).2)
      (fun _ hMem => hMem) (fun _ hMem => hMem)

theorem addsNothing_dropPlaylist
    (cameraId : String) :
    AddsNothing live (dropPlaylist live cameraId) :=
  addsNothing_of_mem (fun _ hMem => hMem)
    (fun _ hMem => (AList.mem_erase.mp hMem).2)
    (fun _ hMem => hMem)

theorem addsNothing_dropUpdates
    (cameraId : String) :
    AddsNothing live (dropUpdates live cameraId) :=
  addsNothing_of_mem (fun _ hMem => hMem)
    (fun _ hMem => hMem)
    (fun _ hMem => (AList.mem_erase.mp hMem).2)

/- After its part of the cleanup a map is empty. -/
theorem holds_dropSegments
    (cameraId : String) :
    (dropSegments live cameraId).holds cameraId .segments =
      false := by
  unfold dropSegments
  split
  · rename_i hNone
    simp [Live.holds, hNone]
  · simp [Live.holds, AList.lookup_erase]

theorem holds_dropPlaylist
    (cameraId : String) :
    (dropPlaylist live cameraId).holds cameraId .playlist =
      false := by
  simp [Live.holds, dropPlaylist, AList.lookup_erase]

theorem holds_dropUpdates
    (cameraId : String) :
    (dropUpdates live cameraId).holds cameraId .updates =
      false := by
  simp [Live.holds, dropUpdates, AList.lookup_erase]

end Hls

end SentinelCommand
