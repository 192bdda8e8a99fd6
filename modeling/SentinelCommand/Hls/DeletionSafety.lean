import SentinelCommand.Hls.Deletion

/-
  When no cached state survives the deletion of a camera.

  A push that began after a deletion had invalidated the
  auth cache is not authorised for its cameras: freshness of
  the cache rules it out. So nothing comes back as long as
  no push that began earlier writes to a map the deletion
  has already emptied. The program does not prevent that
  write.

  Key definitions include:
    * `Hls.LiveInv`
    * `Hls.writeOk`

  Main declarations:
    * `Hls.nothing_survives`
    * `Hls.segment_survives`
-/

--------------------
-- The invariant
--------------------

namespace SentinelCommand

namespace Hls

open Interleaving

/-
  Emptied maps stay empty, deleted rows stay deleted, and a
  finished deletion has emptied all the maps.
-/
structure LiveInv (s : Shared LiveState) : Prop where
  emptied :
    ∀ cameraId kind, (cameraId, kind) ∈ s.rest.emptied →
      s.rest.live.holds cameraId kind = false
  deleted :
    ∀ cameraId n, (cameraId, n) ∈ s.rest.deleted →
      n ≤ s.commits ∧
        ∀ m, n ≤ m → m ≤ s.commits →
          (s.versions m).hasCamera cameraId = false
  finished :
    ∀ cameraId ∈ s.rest.finished, ∀ kind,
      (cameraId, kind) ∈ s.rest.emptied

/- The notes only grow. -/
def liveSetting : Setting LiveState where
  Extra := LiveInv
  Keeps s s' := s.rest.emptied ⊆ s'.rest.emptied
  keeps_refl _ := List.Subset.refl _
  keeps_trans _ _ _ hFirst hSecond :=
    List.Subset.trans hFirst hSecond
  extra_cache _ _ _ _ hInv :=
    ⟨hInv.emptied, hInv.deleted, hInv.finished⟩
  keeps_cache _ _ _ _ := List.Subset.refl _

/-
  A push writes to a map that a deletion has emptied only if
  it began after that deletion's invalidation.
-/
def writeOk : LiveLabel → Shared LiveState → Prop
| .quiet, _ => True
| .write cameraId kind before, s =>
    (cameraId, kind) ∈ s.rest.emptied →
      ∃ note ∈ s.rest.deleted, note.1 = cameraId ∧
        ∃ w ∈ before, note.2 ≤ w.commit

instance (label : LiveLabel) (s : Shared LiveState) :
    Decidable (writeOk label s) := by
  cases label with
  | quiet => exact isTrue trivial
  | write cameraId kind before =>
      unfold writeOk
      infer_instance

abbrev LiveValid : Nat → Shared LiveState → LiveProgram → Prop :=
  Valid liveSetting.Inv liveSetting.Guar writeOk

--------------------
-- Rules for the live caches
--------------------

variable {id : Nat} {s : Shared LiveState}

/- A step of a thread beside the auth cache. -/
theorem inv_rest
    (hInv : liveSetting.Inv s)
    {rest : LiveState}
    (hExtra : LiveInv { s with rest := rest }) :
    liveSetting.Inv { s with rest := rest } :=
  ⟨authInv_outside hInv.auth s.clock rest, hExtra⟩

theorem guar_rest
    {rest : LiveState}
    (hKeeps : s.rest.emptied ⊆ rest.emptied) :
    liveSetting.Guar id s { s with rest := rest } :=
  ⟨guarAuth_outside id s s.clock rest, hKeeps⟩

/- An emptied map stays empty where nothing is added. -/
theorem liveInv_adds
    (hInv : LiveInv s)
    {live : Live}
    {allowed : String → Kind → Prop}
    (hAdds : AddsOnly allowed s.rest.live live)
    (hAllowed :
      ∀ cameraId kind, allowed cameraId kind →
        (cameraId, kind) ∉ s.rest.emptied) :
    LiveInv
      { s with rest := { s.rest with live := live } } where
  emptied cameraId kind hMem := by
    by_contra hHolds
    have hSome : live.holds cameraId kind = true := by
      simpa using hHolds
    rcases hAdds cameraId kind hSome with hOld | hNew
    · have hNone := hInv.emptied cameraId kind hMem
      rw [hOld] at hNone
      contradiction
    · exact hAllowed cameraId kind hNew hMem
  deleted := hInv.deleted
  finished := hInv.finished

/- A quiet step on the live caches adds nothing. -/
theorem valid_quiet
    {α : Type}
    {f : Shared LiveState → Live × α}
    {next : α → LiveProgram}
    (hAdds :
      ∀ now, AddsNothing now.rest.live (f now).1)
    (hNext :
      ∀ after result, Later liveSetting s after →
        liveSetting.Inv after →
          LiveValid id after (next result)) :
    LiveValid id s (onLive .quiet f next) := by
  refine valid_atomic ?_
  intro now hRely hInv _
  have hAfter :
      liveSetting.Inv
        { now with
          rest := { now.rest with live := (f now).1 } } :=
    inv_rest hInv
      (liveInv_adds hInv.extra (hAdds now)
        (fun _ _ hFalse => hFalse.elim))
  have hGuar :
      liveSetting.Guar id now
        { now with
          rest := { now.rest with live := (f now).1 } } :=
    guar_rest (List.Subset.refl _)
  exact ⟨hAfter, hGuar,
    hNext _ _
      (later_trans (later_of_rely hRely)
        (later_of_guar hGuar)) hAfter⟩

/- A cleanup's step empties its map, and notes it. -/
theorem valid_emptyMap
    {cameraId : String}
    {kind : Kind}
    {drop : Live → String → Live}
    {next : LiveProgram}
    (hAdds :
      ∀ live, AddsNothing live (drop live cameraId))
    (hGone :
      ∀ live, (drop live cameraId).holds cameraId kind = false)
    (hNext :
      ∀ after, Later liveSetting s after →
        liveSetting.Inv after →
          (cameraId, kind) ∈ after.rest.emptied →
            LiveValid id after next) :
    LiveValid id s (emptyMap cameraId kind drop next) := by
  refine valid_atomic ?_
  intro now hRely hInv _
  have hDropped :=
    liveInv_adds hInv.extra (hAdds now.rest.live)
      (fun _ _ hFalse => hFalse.elim)
  have hGuar :
      liveSetting.Guar id now
        { now with
          rest :=
            { now.rest with
              live := drop now.rest.live cameraId
              emptied :=
                now.rest.emptied ++ [(cameraId, kind)] } } :=
    guar_rest (List.subset_append_left _ _)
  have hAfter :
      liveSetting.Inv
        { now with
          rest :=
            { now.rest with
              live := drop now.rest.live cameraId
              emptied :=
                now.rest.emptied ++ [(cameraId, kind)] } } := by
    refine inv_rest hInv ⟨?_, hInv.extra.deleted, ?_⟩
    · intro other otherKind hMem
      rcases List.mem_append.mp hMem with hOld | hNew
      · exact hDropped.emptied other otherKind hOld
      · have hPair := List.mem_singleton.mp hNew
        rw [Prod.mk.injEq] at hPair
        rw [hPair.1, hPair.2]
        exact hGone now.rest.live
    · intro other hMem otherKind
      exact List.mem_append_left _
        (hInv.extra.finished other hMem otherKind)
  refine ⟨hAfter, hGuar, hNext _ ?_ hAfter ?_⟩
  · exact later_trans (later_of_rely hRely)
      (later_of_guar hGuar)
  · exact List.mem_append_right _ (List.mem_singleton.mpr rfl)

/- All three maps of the camera are noted as emptied. -/
def AllEmptied
    (s : Shared LiveState)
    (cameraIds : List String) : Prop :=
  ∀ cameraId ∈ cameraIds, ∀ kind,
    (cameraId, kind) ∈ s.rest.emptied

theorem allEmptied_later
    {s' : Shared LiveState}
    {cameraIds : List String}
    (hAll : AllEmptied s cameraIds)
    (hLater : Later liveSetting s s') :
    AllEmptied s' cameraIds := by
  intro cameraId hMem kind
  exact hLater.keeps (hAll cameraId hMem kind)

theorem addsNothing_logged
    {live : Live}
    (first second : List String) :
    AddsNothing live
      { live with
        firstPlaylistLogged := first
        firstStreamGetLogged := second } :=
  addsNothing_of_mem (fun _ hMem => hMem)
    (fun _ hMem => hMem) (fun _ hMem => hMem)

theorem valid_cleanupCamera
    {cameraId : String}
    {next : LiveProgram}
    (hNext :
      ∀ after, Later liveSetting s after →
        liveSetting.Inv after →
          AllEmptied after [cameraId] →
            LiveValid id after next) :
    LiveValid id s (cleanupCamera cameraId next) := by
  refine valid_emptyMap
    (fun _ => addsNothing_dropSegments cameraId)
    (fun _ => holds_dropSegments cameraId) ?_
  intro first hFirst _ hSegments
  refine valid_emptyMap
    (fun _ => addsNothing_dropPlaylist cameraId)
    (fun _ => holds_dropPlaylist cameraId) ?_
  intro second hSecond _ hPlaylist
  refine valid_emptyMap
    (fun _ => addsNothing_dropUpdates cameraId)
    (fun _ => holds_dropUpdates cameraId) ?_
  intro third hThird _ hUpdates
  refine valid_quiet (fun _ => addsNothing_logged _ _) ?_
  intro fourth _ hFourth _
  refine valid_quiet (fun _ => addsNothing_logged _ _) ?_
  intro last _ hLast hInv
  have hReach : Later liveSetting third last :=
    later_trans hFourth hLast
  refine hNext last ?_ hInv ?_
  · exact later_trans hFirst
      (later_trans hSecond (later_trans hThird hReach))
  · intro other hMem kind
    rw [List.mem_singleton.mp hMem]
    cases kind with
    | segments =>
        exact hReach.keeps
          (hThird.keeps (hSecond.keeps hSegments))
    | playlist => exact hReach.keeps (hThird.keeps hPlaylist)
    | updates => exact hReach.keeps hUpdates

theorem valid_cleanupAll
    {cameraIds : List String}
    {next : LiveProgram}
    (hStart : liveSetting.Inv s)
    (hNext :
      ∀ after, Later liveSetting s after →
        liveSetting.Inv after →
          AllEmptied after cameraIds →
            LiveValid id after next) :
    LiveValid id s (cleanupAll cameraIds next) := by
  induction cameraIds generalizing s with
  | nil =>
      exact hNext s (later_refl s) hStart
        (fun _ hMem => by simp at hMem)
  | cons cameraId rest ih =>
      refine valid_cleanupCamera ?_
      intro first hFirst hFirstInv hHead
      refine ih hFirstInv ?_
      intro last hLast hInv hTail
      refine hNext last (later_trans hFirst hLast) hInv ?_
      intro other hMem kind
      rcases List.mem_cons.mp hMem with hSame | hRest
      · exact hLast.keeps
          (hHead other (List.mem_singleton.mpr hSame) kind)
      · exact hTail other hRest kind

/- A write that inserts no camera. -/
def InsertsNone (change : Db → Db) : Prop :=
  ∀ db cameraId, db.hasCamera cameraId = false →
    (change db).hasCamera cameraId = false

theorem insertsNone_keep
    (node : Db → NodeRow → Bool)
    (camera : Db → CameraRow → Bool) :
    InsertsNone (fun db => db.keep (node db) (camera db)) := by
  intro db cameraId hAbsent
  simp only [Db.hasCamera, List.any_eq_false] at hAbsent ⊢
  intro row hRow
  exact hAbsent row (List.mem_of_mem_filter hRow)

/- A row that the last version misses too stays missing. -/
theorem absent_committed
    {now : Shared LiveState}
    {db : Db}
    {cameraId : String}
    {n : Nat}
    (hOld :
      ∀ m, n ≤ m → m ≤ now.commits →
        (now.versions m).hasCamera cameraId = false)
    (hLast : db.hasCamera cameraId = false)
    {m : Nat}
    (hFrom : n ≤ m)
    (hTo : m ≤ now.commits + 1) :
    ((now.committed db).versions m).hasCamera cameraId =
      false := by
  by_cases hEarlier : m ≤ now.commits
  · rw [committed_versions hEarlier]
    exact hOld m hFrom hEarlier
  · have hSame : m = now.commits + 1 := by omega
    have hDb :
        (now.committed db).versions (now.commits + 1) = db :=
      committed_db now db
    rw [hSame, hDb]
    exact hLast

/- A deleted row is in no later version. -/
theorem valid_deleteRows
    {cameraIds : List String}
    {change : Db → Db}
    {next : Nat → LiveProgram}
    (hNone : InsertsNone change)
    (hNext :
      ∀ after committed, Later liveSetting s after →
        liveSetting.Inv after → committed ≤ after.commits →
          LiveValid id after (next committed)) :
    LiveValid id s (deleteRows cameraIds change next) := by
  refine valid_atomic ?_
  intro now hRely hInv _
  have hLater := later_of_rely hRely
  have hGuar :
      liveSetting.Guar id now
        { now.committed (change now.db) with
          rest :=
            { now.rest with
              deleted := now.rest.deleted ++
                (cameraIds.filter
                  (fun id =>
                    !(change now.db).hasCamera id)).map
                  (fun id => (id, now.commits + 1)) } } := by
    have hCommit :=
      guarAuth_commit id now (change now.db)
    exact
      ⟨{ generation := hCommit.generation
         commits := hCommit.commits
         versions := hCommit.versions
         returned := hCommit.returned
         added := hCommit.added
         locked := hCommit.locked },
        List.Subset.refl _⟩
  have hAfter :
      liveSetting.Inv
        { now.committed (change now.db) with
          rest :=
            { now.rest with
              deleted := now.rest.deleted ++
                (cameraIds.filter
                  (fun id =>
                    !(change now.db).hasCamera id)).map
                  (fun id => (id, now.commits + 1)) } } := by
    refine
      ⟨authInv_outside
        (authInv_commit hInv.auth (change now.db))
        now.clock _,
        hInv.extra.emptied, ?_, hInv.extra.finished⟩
    intro cameraId n hMem
    rcases List.mem_append.mp hMem with hOld | hNew
    · rcases hInv.extra.deleted cameraId n hOld with
        ⟨hPast, hGone⟩
      refine ⟨Nat.le_succ_of_le hPast, ?_⟩
      have hDb := hGone now.commits hPast (Nat.le_refl _)
      intro m hFrom hTo
      exact
        absent_committed hGone (hNone now.db cameraId hDb)
          hFrom hTo
    · rcases List.mem_map.mp hNew with ⟨other, hOther, hPair⟩
      rw [Prod.mk.injEq] at hPair
      rcases hPair with ⟨rfl, rfl⟩
      have hAbsent := (List.mem_filter.mp hOther).2
      refine ⟨Nat.le_refl _, ?_⟩
      intro m hFrom hTo
      refine absent_committed ?_ (by simpa using hAbsent) hFrom
        hTo
      intro k hStart hEnd
      exact absurd (Nat.le_trans hStart hEnd) (by omega)
  exact ⟨hAfter, hGuar,
    hNext _ _ (later_trans hLater (later_of_guar hGuar))
      hAfter (Nat.le_refl _)⟩

/- A deletion that has emptied its maps may finish. -/
theorem valid_finish
    {cameraIds : List String}
    {next : LiveProgram}
    (hEmptied : AllEmptied s cameraIds)
    (hNext :
      ∀ after, Later liveSetting s after →
        liveSetting.Inv after → LiveValid id after next) :
    LiveValid id s (finish cameraIds next) := by
  refine valid_atomic ?_
  intro now hRely hInv _
  have hLater := later_of_rely hRely
  have hGuar :
      liveSetting.Guar id now
        { now with
          rest :=
            { now.rest with
              finished := now.rest.finished ++ cameraIds } } :=
    guar_rest (List.Subset.refl _)
  have hAfter :
      liveSetting.Inv
        { now with
          rest :=
            { now.rest with
              finished :=
                now.rest.finished ++ cameraIds } } := by
    refine inv_rest hInv
      ⟨hInv.extra.emptied, hInv.extra.deleted, ?_⟩
    intro cameraId hMem
    rcases List.mem_append.mp hMem with hOld | hNew
    · exact hInv.extra.finished cameraId hOld
    · exact allEmptied_later hEmptied hLater cameraId hNew
  exact ⟨hAfter, hGuar,
    hNext _ (later_trans hLater (later_of_guar hGuar)) hAfter⟩

/- The invalidation leaves the live caches alone. -/
theorem valid_liveInvalidate
    {committed : Nat}
    {next : LiveProgram}
    (hCommitted : committed ≤ s.commits)
    (hNext :
      ∀ after, Later liveSetting s after →
        liveSetting.Inv after → LiveValid id after next) :
    LiveValid id s
      (invalidateAuthCache .quiet committed next) := by
  refine valid_invalidateAuthCache hCommitted ?_ ?_
  · intro now _ hInv _
    exact
      ⟨⟨hInv.extra.emptied, hInv.extra.deleted,
        hInv.extra.finished⟩, List.Subset.refl _⟩
  · intro now _ _ hAfter hLater
    exact hNext _ hLater hAfter

theorem valid_removeCameras
    {cameraIds : List String}
    {change : Db → Db}
    {next : LiveProgram}
    (hStart : liveSetting.Inv s)
    (hNone : InsertsNone change)
    (hNext :
      ∀ after, Later liveSetting s after →
        liveSetting.Inv after → LiveValid id after next) :
    LiveValid id s (removeCameras cameraIds change next) := by
  refine valid_cleanupAll hStart ?_
  intro cleaned hCleaned _ hEmptied
  refine valid_deleteRows hNone ?_
  intro gone committed hGone _ hCommitted
  refine valid_liveInvalidate hCommitted ?_
  intro forgotten hForgotten _
  have hReach : Later liveSetting cleaned forgotten :=
    later_trans hGone hForgotten
  refine valid_finish (allEmptied_later hEmptied hReach) ?_
  intro after hAfter hInv
  exact hNext after
    (later_trans hCleaned (later_trans hReach hAfter)) hInv

--------------------
-- Pushes
--------------------

theorem hasCamera_of_cameraHolds
    {db : Db}
    {nodePk : Int}
    {cameraId : String}
    {camera : PushCamera}
    (hHolds : cameraHolds db (nodePk, cameraId) camera) :
    db.hasCamera cameraId = true := by
  rcases hHolds with ⟨orgId, hRow⟩
  simp only [selectPushCamera, Option.map_eq_some_iff] at hRow
  rcases hRow with ⟨row, hFound, -⟩
  have hMatch := List.find?_some hFound
  simp only [isPushCamera, Bool.and_eq_true] at hMatch
  exact List.any_eq_true.mpr
    ⟨row, List.mem_of_find?_eq_some hFound, hMatch.1.1⟩

/-
  An authorised push that began after a deletion was
  invalidated would have read its camera from a version
  without it. So the map it writes to has not been emptied.
-/
theorem notEmptied_of_writeOk
    {cameraId : String}
    {kind : Kind}
    {before : List Invalidation}
    {nodePk : Int}
    {camera : PushCamera}
    {readAt : Nat}
    (hInv : LiveInv s)
    (hOk : writeOk (.write cameraId kind before) s)
    (hRecorded :
      Recorded cameraHolds s (nodePk, cameraId) camera readAt)
    (hRecent : ∀ w ∈ before, w.commit ≤ readAt) :
    (cameraId, kind) ∉ s.rest.emptied := by
  intro hEmptied
  rcases hOk hEmptied with
    ⟨⟨noted, n⟩, hNote, hSame, w, hBegan, hCommit⟩
  dsimp only at hSame hCommit
  subst hSame
  rcases hInv.deleted noted n hNote with ⟨-, hGone⟩
  have hFrom : n ≤ readAt :=
    Nat.le_trans hCommit (hRecent w hBegan)
  have hAbsent := hGone readAt hFrom hRecorded.past
  have hThere := hasCamera_of_cameraHolds hRecorded.holds
  rw [hAbsent] at hThere
  contradiction

theorem valid_pushWrite
    {α : Type}
    {cameraId : String}
    {kind : Kind}
    {before : List Invalidation}
    {nodePk : Int}
    {camera : PushCamera}
    {readAt : Nat}
    {f : Shared LiveState → Live × α}
    {next : α → LiveProgram}
    (hRecorded :
      Recorded cameraHolds s (nodePk, cameraId) camera readAt)
    (hRecent : ∀ w ∈ before, w.commit ≤ readAt)
    (hAdds :
      ∀ now,
        AddsOnly (only cameraId kind) now.rest.live (f now).1)
    (hNext :
      ∀ after result, Later liveSetting s after →
        liveSetting.Inv after →
          LiveValid id after (next result)) :
    LiveValid id s
      (onLive (.write cameraId kind before) f next) := by
  refine valid_atomic ?_
  intro now hRely hInv hOk
  have hLater := later_of_rely hRely
  have hFree :=
    notEmptied_of_writeOk hInv.extra hOk
      (recorded_later hRecorded hLater) hRecent
  have hAfter :
      liveSetting.Inv
        { now with
          rest := { now.rest with live := (f now).1 } } := by
    refine inv_rest hInv
      (liveInv_adds hInv.extra (hAdds now) ?_)
    rintro other otherKind ⟨rfl, rfl⟩
    exact hFree
  have hGuar :
      liveSetting.Guar id now
        { now with
          rest := { now.rest with live := (f now).1 } } :=
    guar_rest (List.Subset.refl _)
  exact ⟨hAfter, hGuar,
    hNext _ _ (later_trans hLater (later_of_guar hGuar))
      hAfter⟩

theorem valid_dropSwept
    {cameraIds : List String}
    {next : LiveProgram}
    (hStart : liveSetting.Inv s)
    (hNext :
      ∀ after, liveSetting.Inv after →
        LiveValid id after next) :
    LiveValid id s (dropSwept cameraIds next) := by
  induction cameraIds generalizing s with
  | nil => exact hNext s hStart
  | cons cameraId rest ih =>
      refine valid_quiet
        (fun _ => addsNothing_dropPlaylist cameraId) ?_
      intro first _ _ _
      refine valid_quiet
        (fun _ => addsNothing_dropUpdates cameraId) ?_
      intro second _ _ _
      refine valid_quiet (fun _ => addsNothing_logged _ _) ?_
      intro third _ _ _
      refine valid_quiet (fun _ => addsNothing_logged _ _) ?_
      intro last _ _ hInv
      exact ih hInv

theorem valid_evictCaches
    {next : LiveProgram}
    (hNext :
      ∀ after, liveSetting.Inv after →
        LiveValid id after next) :
    LiveValid id s (evictCaches next) := by
  refine valid_quiet (fun _ => addsNothing_evictPlaylists) ?_
  intro first _ _ _
  refine valid_quiet
    (fun now => addsNothing_evictStaleSegments now.clock) ?_
  intro swept stale _ hInv
  exact valid_dropSwept hInv hNext

theorem valid_pushSegmentRoute
    {keyHash : Option String}
    {cameraId filename : String}
    {body : List UInt8}
    {accepted : Bool}
    {caps : Caps} :
    LiveValid id s
      (pushSegmentRoute id keyHash cameraId filename body
        accepted caps) := by
  refine valid_read ?_
  intro began _ hBeganInv
  refine valid_resolvePushTarget (List.Subset.refl _) ?_ ?_
    hBeganInv
  · intro after error _ _
    exact Valid.done after
  · intro after target nodePk camera _ _ hRecorded hRecent
    dsimp only
    split
    · exact Valid.done after
    · refine valid_pushWrite hRecorded hRecent
        (fun now =>
          addsOnly_pushSegment cameraId filename body
            now.clock caps) ?_
      intro last _ _ _
      exact Valid.done last

theorem valid_updateHlsPlaylist
    {keyHash : Option String}
    {cameraId playlist : String}
    {accepted : Bool}
    {interval : Nat} :
    LiveValid id s
      (updateHlsPlaylist id keyHash cameraId playlist accepted
        interval) := by
  refine valid_read ?_
  intro began _ hBeganInv
  refine valid_resolvePushTarget (List.Subset.refl _) ?_ ?_
    hBeganInv
  · intro after error _ _
    exact Valid.done after
  · intro after target nodePk camera _ _ hRecorded hRecent
    dsimp only
    split
    · exact Valid.done after
    · refine valid_pushWrite hRecorded hRecent
        (fun now =>
          addsOnly_setPlaylist cameraId playlist now.clock) ?_
      intro stored _ hStored _
      refine valid_quiet
        (fun _ => addsNothing_firstPlaylistPush cameraId) ?_
      intro logged _ hLogged _
      refine valid_pushWrite
        (recorded_later hRecorded
          (later_trans hStored hLogged)) hRecent
        (fun _ =>
          addsOnly_bumpPlaylistCount cameraId interval) ?_
      intro counted due _ _
      cases due with
      | false => exact Valid.done counted
      | true =>
          exact valid_evictCaches
            (fun after _ => Valid.done after)

--------------------
-- Deleting requests
--------------------

theorem valid_deleteNode
    {nodeId orgId : String} :
    LiveValid id s (deleteNode nodeId orgId) := by
  unfold deleteNode
  refine valid_read ?_
  intro found _ _
  dsimp only
  split
  · exact Valid.done found
  · refine valid_read ?_
    intro listed _ hInv
    refine valid_removeCameras hInv
      (insertsNone_keep (fun _ => _) (fun _ => _)) ?_
    intro after _ _
    exact Valid.done after

theorem valid_decommissionSelf
    {keyHash : String} :
    LiveValid id s (decommissionSelf keyHash) := by
  unfold decommissionSelf
  refine valid_read ?_
  intro found _ _
  dsimp only
  split
  · exact Valid.done found
  · refine valid_read ?_
    intro listed _ hInv
    refine valid_cleanupAll hInv ?_
    intro cleaned _ _ hEmptied
    refine valid_deleteRows
      (insertsNone_keep (fun _ => _) (fun _ => _)) ?_
    intro gone _ hGone _ _
    refine valid_deleteRows
      (insertsNone_keep (fun _ => _) (fun _ => _)) ?_
    intro noNode committed hNoNode _ hCommitted
    refine valid_liveInvalidate hCommitted ?_
    intro forgotten hForgotten _
    have hReach : Later liveSetting cleaned forgotten :=
      later_trans hGone (later_trans hNoNode hForgotten)
    refine valid_finish (allEmptied_later hEmptied hReach) ?_
    intro after _ _
    exact Valid.done after

theorem valid_removeStaleCameras
    {cameraIds : List String}
    (hStart : liveSetting.Inv s) :
    LiveValid id s (removeStaleCameras cameraIds) := by
  induction cameraIds generalizing s with
  | nil => exact Valid.done s
  | cons cameraId rest ih =>
      refine valid_removeCameras hStart
        (insertsNone_keep (fun _ => _) (fun _ => _)) ?_
      intro after _ hInv
      exact ih hInv

theorem valid_registerNode
    {nodePk : Int}
    {reported : List String} :
    LiveValid id s (registerNode nodePk reported) := by
  unfold registerNode
  refine valid_read ?_
  intro listed _ hInv
  exact valid_removeStaleCameras hInv

theorem valid_eraseOrg
    {orgId : String} :
    LiveValid id s (eraseOrg orgId) := by
  unfold eraseOrg
  refine valid_read ?_
  intro listed _ hInv
  refine valid_removeCameras hInv
    (insertsNone_keep (fun _ => _) (fun _ => _)) ?_
  intro after _ _
  exact Valid.done after

theorem valid_startLive
    (task : LiveTask)
    (id : Nat)
    (s : Shared LiveState)
    (_ : liveSetting.Inv s) :
    LiveValid id s (startLive task id) := by
  cases task with
  | pushSegment keyHash cameraId filename body accepted caps =>
      exact valid_pushSegmentRoute
  | updatePlaylist keyHash cameraId playlist accepted
      interval =>
      exact valid_updateHlsPlaylist
  | deleteNode nodeId orgId => exact valid_deleteNode
  | decommission keyHash => exact valid_decommissionSelf
  | registerNode nodePk reported => exact valid_registerNode
  | eraseOrg orgId => exact valid_eraseOrg
  | sweep =>
      exact valid_evictCaches
        (fun after _ => Valid.done after)
  | wait time =>
      unfold startLive
      refine valid_atomic ?_
      intro now _ hInv _
      exact
        ⟨⟨authInv_outside hInv.auth _ _, hInv.extra.emptied,
          hInv.extra.deleted, hInv.extra.finished⟩,
          ⟨guarAuth_outside id now _ _, List.Subset.refl _⟩,
          Valid.done _⟩

--------------------
-- Every interleaving
--------------------

/- A process that has just started, with empty caches. -/
def liveInitial
    (ttl : Nat)
    (db : Db) : Config (Shared LiveState) LiveLabel :=
  initial (Shared.initial ttl db LiveState.empty)

def liveRun
    (ttl : Nat)
    (db : Db)
    (events : List (Event LiveTask)) :
    Config (Shared LiveState) LiveLabel :=
  Run.exec (step startLive) (liveInitial ttl db) events

theorem liveInv_initial
    (ttl : Nat)
    (db : Db) :
    liveSetting.Inv
      (Shared.initial ttl db LiveState.empty) where
  auth :=
    { returned := fun w hMem => by
        simp [Shared.initial] at hMem
      synced := Nat.le_refl _
      nodes := tableOk_empty nodeHolds _ _
      cameras := tableOk_empty cameraHolds _ _
      viewable := tableOk_empty viewableHolds _ _
      answers := fun a hMem => by
        simp [Shared.initial] at hMem }
  extra :=
    { emptied := fun cameraId kind hMem => by
        simp [Shared.initial, LiveState.empty] at hMem
      deleted := fun cameraId n hMem => by
        simp [Shared.initial, LiveState.empty] at hMem
      finished := fun cameraId hMem => by
        simp [Shared.initial, LiveState.empty] at hMem }

/-
  If every push that began before a deletion's invalidation
  has made its writes before the deletion empties the map,
  nothing is held for the cameras of a finished deletion.
-/
theorem nothing_survives
    (ttl : Nat)
    (db : Db)
    (events : List (Event LiveTask))
    (hMeets :
      Run.Meets (step startLive) (EventOk writeOk)
        (liveInitial ttl db) events) :
    ∀ cameraId ∈ (liveRun ttl db events).shared.rest.finished,
      ∀ kind,
        (liveRun ttl db events).shared.rest.live.holds
          cameraId kind = false := by
  intro cameraId hFinished kind
  have hFinal :
      liveSetting.Inv (liveRun ttl db events).shared :=
    sound valid_startLive (liveInv_initial ttl db) hMeets
  exact hFinal.extra.emptied cameraId kind
    (hFinal.extra.finished cameraId hFinished kind)

/- One camera on one node. -/
def depot : Db where
  cameraNodes :=
    [{ pk := 1, orgId := "org_1", nodeId := "node_1"
       apiKeyHash := "hash" }]
  cameras :=
    [{ cameraId := "cam_1", nodePk := some 1, orgId := "org_1"
       name := "Gate", disabledByPlan := false }]
  unique := by decide

def gatePush : LiveTask :=
  .pushSegment (some "hash") "cam_1" "seg_1.ts" [7] true
    { maxPerCamera := 60, maxTotalBytes := 1000
      lowWater := 900 }

/- A push that is over before its node is deleted. -/
def pushedFirst : List (Event LiveTask) :=
  .spawn gatePush :: List.replicate 24 (.run 0) ++
    .spawn (.deleteNode "node_1" "org_1") ::
    List.replicate 10 (.run 1)

theorem nothing_survives_pushedFirst :
    "cam_1" ∈
        (liveRun 300 depot pushedFirst).shared.rest.finished ∧
      (liveRun 300 depot pushedFirst).shared.rest.live.holds
        "cam_1" .segments = false :=
  ⟨by decide,
    nothing_survives 300 depot pushedFirst (by decide) "cam_1"
      (by decide) .segments⟩

/-
  A push is authorised, its node is deleted, and then the
  push writes.
-/
def pushedAcross : List (Event LiveTask) :=
  .spawn gatePush :: List.replicate 23 (.run 0) ++
    .spawn (.deleteNode "node_1" "org_1") ::
    List.replicate 10 (.run 1) ++ [.run 0]

/- Both requests are over, and the segment is held. -/
theorem segment_survives :
    (liveRun 300 depot pushedAcross).threads.all
        Thread.isDone = true ∧
      "cam_1" ∈
        (liveRun 300 depot pushedAcross).shared.rest.finished ∧
      (liveRun 300 depot pushedAcross).shared.db.hasCamera
        "cam_1" = false ∧
      (liveRun 300 depot pushedAcross).shared.rest.live.holds
        "cam_1" .segments = true := by
  decide

end Hls

end SentinelCommand
