import SentinelCommand.Hls.SegmentStore

/-
  The stale sweep over whole runs of the live caches. A
  camera's entries are in five maps, and the sweep finds the
  camera in one of them.

  Main declarations:
    * `Hls.LiveOp`, `Hls.liveAfter`
    * `Hls.Live.Clean`, `Hls.Live.Found`
    * `Hls.swept_clean_iff`
-/

--------------------
-- Operations
--------------------

namespace SentinelCommand

namespace Hls

def firstStreamGet
    (live : Live)
    (cameraId : String) : Live :=
  if live.firstStreamGetLogged.contains cameraId then
    live
  else
    { live with
      firstStreamGetLogged :=
        cameraId :: live.firstStreamGetLogged }

/- The operations on the segments, and those beside them. -/
inductive LiveOp where
  | cache (op : CacheOp)
  | setPlaylist (cameraId playlist : String) (now : Nat)
  | bumpPlaylistCount (cameraId : String) (interval : Nat)
  | firstPlaylistPush (cameraId : String)
  | firstStreamGet (cameraId : String)
  deriving DecidableEq, Repr

def applyLiveOp (live : Live) : LiveOp → Live
| .cache op => applyCacheOp live op
| .setPlaylist cameraId playlist now =>
    setPlaylist live cameraId playlist now
| .bumpPlaylistCount cameraId interval =>
    (bumpPlaylistCount live cameraId interval).1
| .firstPlaylistPush cameraId =>
    firstPlaylistPush live cameraId
| .firstStreamGet cameraId => firstStreamGet live cameraId

/- What a process holds after a run of operations. -/
def liveAfter (ops : List LiveOp) : Live :=
  Run.exec applyLiveOp Live.empty ops

/- When an operation pushed a segment of the camera. -/
def pushedAt (cameraId : String) : LiveOp → Option Nat
| .cache (.pushSegment other _ _ _ _ now) =>
    if other = cameraId then some now else none
| _ => none

/- Every push of the camera is over the age at `now`. -/
def Late
    (ops : List LiveOp)
    (cameraId : String)
    (now : Nat) : Prop :=
  ∀ op ∈ ops, ∀ pushed ∈ pushedAt cameraId op,
    pushed + staleCameraAge < now

instance
    (ops : List LiveOp)
    (cameraId : String)
    (now : Nat) :
    Decidable (Late ops cameraId now) :=
  inferInstanceAs
    (Decidable
      (∀ op ∈ ops, ∀ pushed ∈ pushedAt cameraId op,
        pushed + staleCameraAge < now))

--------------------
-- A Camera's Entries
--------------------

/- An entry in one of the four maps beside the segments. -/
def Live.Beside (live : Live) (cameraId : String) : Prop :=
  cameraId ∈ live.playlists ∨
    cameraId ∈ live.playlistUpdates ∨
      cameraId ∈ live.firstPlaylistLogged ∨
        cameraId ∈ live.firstStreamGetLogged

/- No entry in any of the five. -/
def Live.Clean (live : Live) (cameraId : String) : Prop :=
  cameraId ∉ live.segments.cameras ∧ ¬ live.Beside cameraId

/-
  The sweep can find the camera, or the playlist cap leaves
  nothing of it to be found.
-/
def Live.Found (live : Live) (cameraId : String) : Prop :=
  cameraId ∈ live.segments.cameras ∨
    ¬ (evictPlaylists live).Beside cameraId

instance (live : Live) (cameraId : String) :
    Decidable (live.Beside cameraId) :=
  inferInstanceAs (Decidable (_ ∨ _))

instance (live : Live) (cameraId : String) :
    Decidable (live.Clean cameraId) :=
  inferInstanceAs (Decidable (_ ∧ _))

instance (live : Live) (cameraId : String) :
    Decidable (live.Found cameraId) :=
  inferInstanceAs (Decidable (_ ∨ _))

theorem mem_eraseAll_iff
    {V : Type}
    {cameraIds : List String}
    {table : AList (fun _ : String => V)}
    {cameraId : String} :
    cameraId ∈ eraseAll cameraIds table ↔
      cameraId ∉ cameraIds ∧ cameraId ∈ table := by
  induction cameraIds generalizing table with
  | nil => simp [eraseAll]
  | cons first rest ih =>
      have hRest :
          cameraId ∈ eraseAll rest (table.erase first) ↔
            cameraId ∉ rest ∧ cameraId ≠ first ∧
              cameraId ∈ table := by
        rw [ih, AList.mem_erase]
      have hStep :
          eraseAll (first :: rest) table =
            eraseAll rest (table.erase first) := rfl
      rw [hStep, hRest, List.mem_cons]
      grind

theorem beside_dropBeside_iff
    (live : Live)
    (cameraId other : String) :
    (dropBeside live other).Beside cameraId ↔
      cameraId ≠ other ∧ live.Beside cameraId := by
  simp only [Live.Beside, dropBeside, dropStreamGetLogged,
    dropPlaylistLogged, dropUpdates, dropPlaylist,
    AList.mem_erase, List.mem_filter, decide_eq_true_eq]
  grind

theorem beside_dropBeside_foldl_iff
    {live : Live}
    {cameraIds : List String}
    {cameraId : String} :
    (cameraIds.foldl dropBeside live).Beside cameraId ↔
      cameraId ∉ cameraIds ∧ live.Beside cameraId := by
  induction cameraIds generalizing live with
  | nil => simp
  | cons first rest ih =>
      rw [List.foldl_cons, ih, beside_dropBeside_iff,
        List.mem_cons]
      grind

theorem mem_staleCameras_iff
    {store : SegmentStore}
    {now : Nat}
    {cameraId : String} :
    cameraId ∈ staleCameras store now ↔
      ∃ bucket,
        store.cameras.lookup cameraId = some bucket ∧
          ∀ segment ∈ bucket,
            segment.storedAt + staleCameraAge < now := by
  unfold staleCameras
  simp only [List.mem_map, List.mem_filter, List.all_eq_true,
    decide_eq_true_eq]
  constructor
  · rintro ⟨entry, ⟨hEntry, hOld⟩, rfl⟩
    exact ⟨entry.2, AList.mem_lookup_iff.mpr hEntry, hOld⟩
  · rintro ⟨bucket, hFound, hOld⟩
    exact
      ⟨⟨cameraId, bucket⟩,
        ⟨AList.mem_lookup_iff.mp hFound, hOld⟩, rfl⟩

variable {live : Live} {now : Nat} {cameraId : String}

theorem mem_evictStaleCameras_iff :
    cameraId ∈ (evictStaleCameras live now).segments.cameras ↔
      cameraId ∉ staleCameras live.segments now ∧
        cameraId ∈ live.segments.cameras := by
  unfold evictStaleCameras
  rw [segments_dropBeside]
  exact mem_eraseAll_iff

theorem beside_evictStaleCameras_iff :
    (evictStaleCameras live now).Beside cameraId ↔
      cameraId ∉ staleCameras live.segments now ∧
        live.Beside cameraId :=
  beside_dropBeside_foldl_iff

/- A swept camera is gone, another one is as it was. -/
theorem clean_evictStaleCameras_iff :
    (evictStaleCameras live now).Clean cameraId ↔
      cameraId ∈ staleCameras live.segments now ∨
        live.Clean cameraId := by
  unfold Live.Clean
  rw [mem_evictStaleCameras_iff, beside_evictStaleCameras_iff]
  grind

--------------------
-- When Segments Were Pushed
--------------------

/- A segment of a bucket is from a push of its camera. -/
def PushedIn (ops : List LiveOp) (live : Live) : Prop :=
  ∀ cameraId bucket,
    live.segments.cameras.lookup cameraId = some bucket →
      ∀ segment ∈ bucket,
        ∃ op ∈ ops,
          pushedAt cameraId op = some segment.storedAt

theorem pushedIn_of_shrinks
    {ops : List LiveOp}
    {live live' : Live}
    (hPushedIn : PushedIn ops live)
    (hShrinks : Shrinks live.segments live'.segments) :
    PushedIn ops live' := by
  intro cameraId bucket' hFound segment hMem
  rcases hShrinks cameraId bucket' hFound with
    ⟨bucket, hBefore, hSub⟩
  exact hPushedIn cameraId bucket hBefore segment
    (hSub.subset hMem)

theorem segments_evictPlaylists (live : Live) :
    (evictPlaylists live).segments = live.segments := by
  unfold evictPlaylists
  rfl

theorem segments_firstPlaylistPush
    (live : Live)
    (cameraId : String) :
    (firstPlaylistPush live cameraId).segments =
      live.segments := by
  unfold firstPlaylistPush
  split <;> rfl

theorem segments_firstStreamGet
    (live : Live)
    (cameraId : String) :
    (firstStreamGet live cameraId).segments =
      live.segments := by
  unfold firstStreamGet
  split <;> rfl

theorem pushedIn_more
    {ops : List LiveOp}
    {live : Live}
    (op : LiveOp)
    (hPushedIn : PushedIn ops live) :
    PushedIn (ops ++ [op]) live := by
  intro cameraId bucket hFound segment hMem
  rcases hPushedIn cameraId bucket hFound segment hMem with
    ⟨past, hPast, hAt⟩
  exact ⟨past, List.mem_append_left [op] hPast, hAt⟩

theorem shrinks_pushSegment
    (store : SegmentStore)
    (cameraId filename : String)
    (body : List UInt8)
    (now : Nat)
    (caps : Caps) :
    Shrinks
      (insertPushed store cameraId ⟨filename, body, now⟩)
      (pushSegment store cameraId filename body now caps) :=
  shrinks_trans (shrinks_evictPerCamera _ cameraId _)
    (shrinks_evictGlobalOldest _ caps)

theorem pushedIn_push
    {ops : List LiveOp}
    {live : Live}
    (cameraId filename : String)
    (body : List UInt8)
    (maxPerCamera : Nat)
    (maxTotalBytes : Int)
    (now : Nat)
    (hPushedIn : PushedIn ops live) :
    PushedIn
      (ops ++
        [.cache (.pushSegment cameraId filename body
          maxPerCamera maxTotalBytes now)])
      (applyCacheOp live
        (.pushSegment cameraId filename body maxPerCamera
          maxTotalBytes now)) := by
  intro other bucket' hFound segment hMem
  rcases shrinks_pushSegment live.segments cameraId filename
    body now (capsFor maxPerCamera maxTotalBytes) other bucket'
    hFound with ⟨bucket, hPushed, hSub⟩
  replace hMem := hSub.subset hMem
  have hOld
      (old : Bucket)
      (hBefore :
        live.segments.cameras.lookup other = some old)
      (hThere : segment ∈ old) :
      ∃ op ∈ ops ++
          [.cache (.pushSegment cameraId filename body
            maxPerCamera maxTotalBytes now)],
        pushedAt other op = some segment.storedAt :=
    pushedIn_more _ hPushedIn other old hBefore segment hThere
  unfold insertPushed at hPushed
  dsimp only at hPushed
  by_cases hSame : other = cameraId
  · subst hSame
    rw [AList.lookup_insert] at hPushed
    rw [← Option.some.inj hPushed] at hMem
    rcases mem_insertSegment hMem with hNew | hThere
    · refine ⟨_, List.mem_append_right ops
        (List.mem_singleton.mpr rfl), ?_⟩
      simp [pushedAt, hNew]
    · cases hBefore : live.segments.cameras.lookup other with
      | none =>
          rw [hBefore] at hThere
          exact absurd hThere List.not_mem_nil
      | some old =>
          rw [hBefore] at hThere
          exact hOld old hBefore hThere
  · rw [AList.lookup_insert_ne hSame] at hPushed
    exact hOld bucket hPushed hMem

theorem shrinks_dropSegments
    (live : Live)
    (cameraId : String) :
    Shrinks live.segments
      (dropSegments live cameraId).segments := by
  unfold dropSegments
  split
  · exact shrinks_refl live.segments
  · exact shrinks_erase

/- The same store, so the same segments. -/
theorem shrinks_of_eq
    {store store' : SegmentStore}
    (hSame : store' = store) :
    Shrinks store store' := by
  rw [hSame]
  exact shrinks_refl store

theorem shrinks_evictStaleCameras
    (live : Live)
    (now : Nat) :
    Shrinks live.segments
      (evictStaleCameras live now).segments := by
  unfold evictStaleCameras
  rw [segments_dropBeside]
  intro cameraId bucket hFound
  exact ⟨bucket, lookup_eraseAll hFound, List.Sublist.refl _⟩

theorem pushedIn_applyLiveOp
    {ops : List LiveOp}
    {live : Live}
    (op : LiveOp)
    (hPushedIn : PushedIn ops live) :
    PushedIn (ops ++ [op]) (applyLiveOp live op) := by
  cases op with
  | cache op =>
      cases op with
      | pushSegment cameraId filename body maxPerCamera
          maxTotalBytes now =>
          exact pushedIn_push cameraId filename body
            maxPerCamera maxTotalBytes now hPushedIn
      | cleanupCamera cameraId =>
          exact pushedIn_of_shrinks (pushedIn_more _ hPushedIn)
            (shrinks_dropSegments live cameraId)
      | evictStaleCameras now =>
          exact pushedIn_of_shrinks (pushedIn_more _ hPushedIn)
            (shrinks_evictStaleCameras live now)
      | evictCaches now =>
          exact pushedIn_of_shrinks (pushedIn_more _ hPushedIn)
            (shrinks_trans
              (shrinks_of_eq (segments_evictPlaylists live))
              (shrinks_evictStaleCameras (evictPlaylists live)
                now))
  | setPlaylist cameraId playlist now =>
      exact pushedIn_more _ hPushedIn
  | bumpPlaylistCount cameraId interval =>
      exact pushedIn_more _ hPushedIn
  | firstPlaylistPush cameraId =>
      exact pushedIn_of_shrinks (pushedIn_more _ hPushedIn)
        (shrinks_of_eq
          (segments_firstPlaylistPush live cameraId))
  | firstStreamGet cameraId =>
      exact pushedIn_of_shrinks (pushedIn_more _ hPushedIn)
        (shrinks_of_eq (segments_firstStreamGet live cameraId))

theorem pushedIn_liveAfter (ops : List LiveOp) :
    PushedIn ops (liveAfter ops) := by
  induction ops using List.reverseRecOn with
  | nil =>
      intro cameraId bucket hFound
      have hNone :
          Live.empty.segments.cameras.lookup cameraId = none :=
        AList.lookup_empty cameraId
      rw [liveAfter, Run.exec_nil, hNone] at hFound
      contradiction
  | append_singleton ops op ih =>
      have hStep :
          liveAfter (ops ++ [op]) =
            applyLiveOp (liveAfter ops) op := by
        rw [liveAfter, Run.exec_append]
        rfl
      rw [hStep]
      exact pushedIn_applyLiveOp op ih

/- A camera that is late has no fresh segment left. -/
theorem mem_staleCameras_of_late
    {ops : List LiveOp}
    {live : Live}
    {cameraId : String}
    {now : Nat}
    (hPushedIn : PushedIn ops live)
    (hLate : Late ops cameraId now) :
    cameraId ∈ staleCameras live.segments now ↔
      cameraId ∈ live.segments.cameras := by
  rw [mem_staleCameras_iff]
  constructor
  · rintro ⟨bucket, hFound, -⟩
    rw [← AList.lookup_isSome, hFound]
    rfl
  · intro hMem
    rcases Option.isSome_iff_exists.mp
      (AList.lookup_isSome.mpr hMem) with ⟨bucket, hFound⟩
    refine ⟨bucket, hFound, ?_⟩
    intro segment hSegment
    rcases hPushedIn cameraId bucket hFound segment hSegment
      with ⟨op, hOp, hAt⟩
    exact hLate op hOp segment.storedAt hAt

/- What a late sweep leaves is what it could not find. -/
theorem clean_evictCaches_iff
    {ops : List LiveOp}
    {live : Live}
    {cameraId : String}
    {now : Nat}
    (hPushedIn : PushedIn ops live)
    (hLate : Late ops cameraId now) :
    (applyLiveOp live (.cache (.evictCaches now))).Clean
        cameraId ↔
      live.Found cameraId := by
  have hSegments := segments_evictPlaylists live
  have hPlaylists : PushedIn ops (evictPlaylists live) :=
    pushedIn_of_shrinks hPushedIn (shrinks_of_eq hSegments)
  have hStale := mem_staleCameras_of_late hPlaylists hLate
  have hSweep :
      applyLiveOp live (.cache (.evictCaches now)) =
        evictStaleCameras (evictPlaylists live) now := rfl
  rw [hSweep, clean_evictStaleCameras_iff, hStale, hSegments]
  unfold Live.Clean Live.Found
  rw [hSegments]
  grind

variable {cameraId : String}

/- Every late sweep of the run leaves nothing of it. -/
def SweptClean
    (ops : List LiveOp)
    (cameraId : String) : Prop :=
  ∀ past now,
    past ++ [.cache (.evictCaches now)] <+: ops →
      Late past cameraId now →
        (liveAfter
          (past ++ [.cache (.evictCaches now)])).Clean cameraId

/- Every late sweep of the run starts where it can find it. -/
def SweepFinds
    (ops : List LiveOp)
    (cameraId : String) : Prop :=
  ∀ past now,
    past ++ [.cache (.evictCaches now)] <+: ops →
      Late past cameraId now →
        (liveAfter past).Found cameraId

/-
  A camera's late sweeps leave nothing of it exactly when
  each of them starts with a bucket of the camera among the
  segments, or with nothing but what the playlist cap drops.
-/
theorem swept_clean_iff
    (ops : List LiveOp)
    (cameraId : String) :
    SweptClean ops cameraId ↔ SweepFinds ops cameraId := by
  have hSweep
      (past : List LiveOp)
      (now : Nat)
      (hLate : Late past cameraId now) :
      (liveAfter
          (past ++ [.cache (.evictCaches now)])).Clean
          cameraId ↔
        (liveAfter past).Found cameraId := by
    rw [liveAfter, Run.exec_append]
    exact clean_evictCaches_iff (pushedIn_liveAfter past) hLate
  constructor
  · intro hClean past now hPrefix hLate
    exact (hSweep past now hLate).mp
      (hClean past now hPrefix hLate)
  · intro hFinds past now hPrefix hLate
    exact (hSweep past now hLate).mpr
      (hFinds past now hPrefix hLate)

/-
  A camera at a gate goes quiet, and the pushes of another
  one take its last segment before the next sweep.
-/
def quietGate : List LiveOp :=
  [.cache (.pushSegment "gate" "segment_00001.ts" [1, 2, 3]
      60 4 0),
    .setPlaylist "gate" "#EXTM3U" 0,
    .bumpPlaylistCount "gate" 50,
    .firstPlaylistPush "gate",
    .cache (.pushSegment "yard" "segment_00001.ts" [4, 5, 6]
      60 4 5),
    .cache (.evictCaches 3600)]

theorem orphaned_by_global_pass :
    ¬ SweptClean quietGate "gate" := by
  intro hClean
  have hRun :
      quietGate.take 5 ++ [.cache (.evictCaches 3600)] =
        quietGate := rfl
  have hSwept :=
    hClean (quietGate.take 5) 3600 (by decide) (by decide)
  rw [hRun] at hSwept
  have hLeft :
      ¬ (liveAfter quietGate).Clean "gate" := by decide
  exact hLeft hSwept

--------------------
-- What Strands a Camera
--------------------

/- The camera whose entry beside the segments is written. -/
def besideOf : LiveOp → Option String
| .cache _ => none
| .setPlaylist cameraId _ _ => some cameraId
| .bumpPlaylistCount cameraId _ => some cameraId
| .firstPlaylistPush cameraId => some cameraId
| .firstStreamGet cameraId => some cameraId

/- The sweep will find whatever there is of the camera. -/
def Live.Tethered (live : Live) (cameraId : String) : Prop :=
  cameraId ∈ live.segments.cameras ∨ ¬ live.Beside cameraId

/-
  A push that takes the bucket of a camera with entries
  beside it, or such an entry where there is no bucket.
-/
def Strands
    (live : Live)
    (cameraId : String)
    (op : LiveOp) : Prop :=
  match op with
  | .cache (.pushSegment _ _ _ _ _ _) =>
      live.Beside cameraId ∧
        cameraId ∉ (applyLiveOp live op).segments.cameras
  | _ =>
      besideOf op = some cameraId ∧
        cameraId ∉ live.segments.cameras

theorem beside_evictPlaylists
    {live : Live}
    {cameraId : String}
    (hBeside : (evictPlaylists live).Beside cameraId) :
    live.Beside cameraId := by
  unfold evictPlaylists at hBeside
  generalize excessPlaylists live = dropped at hBeside
  rcases hBeside with hPlaylist | hUpdates | hLogged
  · exact Or.inl (mem_eraseAll hPlaylist)
  · exact Or.inr (Or.inl (mem_eraseAll hUpdates))
  · exact Or.inr (Or.inr hLogged)

theorem found_of_tethered
    {live : Live}
    {cameraId : String}
    (hTethered : live.Tethered cameraId) :
    live.Found cameraId := by
  rcases hTethered with hBucket | hNone
  · exact Or.inl hBucket
  · exact Or.inr (fun h => hNone (beside_evictPlaylists h))

theorem mem_insert_logged
    (cameraId other : String)
    (logged : List String) :
    cameraId ∈
        (if logged.contains other then logged
          else other :: logged) ↔
      other = cameraId ∨ cameraId ∈ logged := by
  split
  · rename_i hThere
    have hMem : other ∈ logged := by simpa using hThere
    constructor
    · exact Or.inr
    · rintro (rfl | h)
      · exact hMem
      · exact h
  · rw [List.mem_cons]
    exact or_congr_left eq_comm

/- A write beside the segments adds its camera's entry. -/
theorem beside_write_iff
    {live : Live}
    {cameraId : String}
    {op : LiveOp}
    (hWrite : ∀ cacheOp, op ≠ .cache cacheOp) :
    (applyLiveOp live op).Beside cameraId ↔
      besideOf op = some cameraId ∨ live.Beside cameraId := by
  cases op with
  | cache cacheOp => exact absurd rfl (hWrite cacheOp)
  | setPlaylist other playlist now =>
      simp only [applyLiveOp, setPlaylist, Live.Beside,
        AList.mem_insert, besideOf, Option.some.injEq,
        eq_comm (a := cameraId)]
      grind
  | bumpPlaylistCount other interval =>
      simp only [applyLiveOp, bumpPlaylistCount, Live.Beside,
        AList.mem_insert, besideOf, Option.some.injEq,
        eq_comm (a := cameraId)]
      grind
  | firstPlaylistPush other =>
      have hLogged :=
        mem_insert_logged cameraId other
          live.firstPlaylistLogged
      simp only [applyLiveOp, firstPlaylistPush, besideOf,
        Option.some.injEq]
      unfold Live.Beside
      split at hLogged <;> rename_i hThere <;>
        simp only [hThere, if_true, if_false,
          Bool.false_eq_true] <;> grind
  | firstStreamGet other =>
      have hLogged :=
        mem_insert_logged cameraId other
          live.firstStreamGetLogged
      simp only [applyLiveOp, firstStreamGet, besideOf,
        Option.some.injEq]
      unfold Live.Beside
      split at hLogged <;> rename_i hThere <;>
        simp only [hThere, if_true, if_false,
          Bool.false_eq_true] <;> grind

/- A write beside the segments leaves them as they are. -/
theorem segments_write
    {live : Live}
    {op : LiveOp}
    (hWrite : ∀ cacheOp, op ≠ .cache cacheOp) :
    (applyLiveOp live op).segments = live.segments := by
  cases op with
  | cache cacheOp => exact absurd rfl (hWrite cacheOp)
  | setPlaylist other playlist now => rfl
  | bumpPlaylistCount other interval => rfl
  | firstPlaylistPush other =>
      exact segments_firstPlaylistPush live other
  | firstStreamGet other =>
      exact segments_firstStreamGet live other

theorem tethered_write_iff
    {live : Live}
    {cameraId : String}
    {op : LiveOp}
    (hWrite : ∀ cacheOp, op ≠ .cache cacheOp)
    (hTethered : live.Tethered cameraId) :
    (applyLiveOp live op).Tethered cameraId ↔
      ¬ (besideOf op = some cameraId ∧
        cameraId ∉ live.segments.cameras) := by
  unfold Live.Tethered at *
  rw [beside_write_iff hWrite, segments_write hWrite]
  grind

/- A sweep takes all of a camera's entries, or none. -/
theorem tethered_evictStaleCameras
    {live : Live}
    {cameraId : String}
    (now : Nat)
    (hTethered : live.Tethered cameraId) :
    (evictStaleCameras live now).Tethered cameraId := by
  unfold Live.Tethered at *
  rw [beside_evictStaleCameras_iff, mem_evictStaleCameras_iff]
  grind

theorem tethered_cleanup
    {live : Live}
    {cameraId : String}
    (other : String)
    (hTethered : live.Tethered cameraId) :
    (cleanupCache live other).Tethered cameraId := by
  have hBeside :
      (cleanupCache live other).Beside cameraId ↔
        cameraId ≠ other ∧ live.Beside cameraId := by
    have hDrop :=
      beside_dropBeside_iff (dropSegments live other) cameraId
        other
    have hSame :
        (dropSegments live other).Beside cameraId ↔
          live.Beside cameraId := by
      unfold dropSegments
      split <;> exact Iff.rfl
    rw [← hSame, ← hDrop]
    exact Iff.rfl
  by_cases hOther : cameraId = other
  · right
    rw [hBeside]
    exact fun h => h.1 hOther
  · have hSegments :
        cameraId ∈ (dropSegments live other).segments.cameras ↔
          cameraId ∈ live.segments.cameras := by
      unfold dropSegments
      split
      · exact Iff.rfl
      · rw [AList.mem_erase]
        exact ⟨fun h => h.2, fun h => ⟨hOther, h⟩⟩
    unfold Live.Tethered at *
    rw [hBeside]
    have hStore :
        (cleanupCache live other).segments =
          (dropSegments live other).segments := rfl
    rw [hStore, hSegments]
    grind

theorem tethered_step_iff
    (live : Live)
    (op : LiveOp)
    (hTethered : live.Tethered cameraId) :
    (applyLiveOp live op).Tethered cameraId ↔
      ¬ Strands live cameraId op := by
  cases op with
  | cache op =>
      cases op with
      | pushSegment other filename body maxPerCamera
          maxTotalBytes now =>
          simp only [Live.Tethered, Strands, not_and,
            not_not, ← imp_iff_or_not]
          exact Iff.rfl
      | cleanupCamera other =>
          simp only [Strands, besideOf, reduceCtorEq,
            false_and, not_false_eq_true, iff_true]
          exact tethered_cleanup other hTethered
      | evictStaleCameras now =>
          simp only [Strands, besideOf, reduceCtorEq,
            false_and, not_false_eq_true, iff_true]
          exact tethered_evictStaleCameras now hTethered
      | evictCaches now =>
          simp only [Strands, besideOf, reduceCtorEq,
            false_and, not_false_eq_true, iff_true]
          refine tethered_evictStaleCameras now ?_
          unfold Live.Tethered at *
          rw [segments_evictPlaylists]
          rcases hTethered with hBucket | hNone
          · exact Or.inl hBucket
          · exact Or.inr
              (fun h => hNone (beside_evictPlaylists h))
  | setPlaylist other playlist now =>
      exact tethered_write_iff (by simp) hTethered
  | bumpPlaylistCount other interval =>
      exact tethered_write_iff (by simp) hTethered
  | firstPlaylistPush other =>
      exact tethered_write_iff (by simp) hTethered
  | firstStreamGet other =>
      exact tethered_write_iff (by simp) hTethered

/- A run without a stranding step is swept clean. -/
theorem swept_clean_of_never_stranded
    {ops : List LiveOp}
    (hNever :
      Run.Meets applyLiveOp
        (fun live op => ¬ Strands live cameraId op)
        Live.empty ops) :
    SweptClean ops cameraId := by
  have hEmpty : Live.empty.Tethered cameraId := by
    right
    simp [Live.Beside, Live.empty]
  intro past now hPrefix hLate
  rw [liveAfter, Run.exec_append]
  apply
    (clean_evictCaches_iff (pushedIn_liveAfter past) hLate).mpr
  apply found_of_tethered
  exact
    (Run.good_prefixes_iff_meets
      (fun live : Live => live.Tethered cameraId)
      tethered_step_iff ops hEmpty).mpr
      hNever past ((List.prefix_append past _).trans hPrefix)

/- With a bucket of its own the gate is swept. -/
def sweptGate : List LiveOp :=
  [.cache (.pushSegment "gate" "segment_00001.ts" [1, 2, 3]
      60 100 0),
    .setPlaylist "gate" "#EXTM3U" 0,
    .cache (.evictCaches 3600)]

theorem swept_clean_of_never_stranded_gate :
    SweptClean sweptGate "gate" := by
  apply swept_clean_of_never_stranded
  refine ⟨?_, ?_, ?_, trivial⟩
  · unfold Strands
    decide
  · unfold Strands
    decide
  · unfold Strands
    decide

end Hls

end SentinelCommand
