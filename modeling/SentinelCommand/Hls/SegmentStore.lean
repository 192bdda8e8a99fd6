import SentinelCommand.Hls.SegmentOrder
import SentinelCommand.Lib.Binary64
import SentinelCommand.Lib.Run
import SentinelCommand.Lib.Tally

/-
  The segment store over whole runs: the running byte total
  is the size of what is stored, a push leaves the store
  within both of its caps, and the per-camera pass removes
  the earliest segments.

  Main declarations:
    * `Hls.lowWater`
    * `Hls.CacheOp`, `Hls.applyCacheOp`
    * `Hls.segment_store_sound`
-/

--------------------
-- Operations
--------------------

namespace SentinelCommand

namespace Hls

/-
  `(max_total_bytes as f64 * 0.95) as i64`. The binary64
  number nearest to 0.95 is 8556839292003942 over `2 ^ 53`.
-/
def lowWater (maxTotalBytes : Int) : Int :=
  let product :=
    Binary64.round maxTotalBytes.natAbs * 8556839292003942
  maxTotalBytes.sign * (Binary64.round product / 2 ^ 53 : Nat)

def capsFor
    (maxPerCamera : Nat)
    (maxTotalBytes : Int) : Caps where
  maxPerCamera := maxPerCamera
  maxTotalBytes := maxTotalBytes
  lowWater := lowWater maxTotalBytes

def cleanupCache (live : Live) (cameraId : String) : Live :=
  dropStreamGetLogged
    (dropPlaylistLogged
      (dropUpdates
        (dropPlaylist (dropSegments live cameraId) cameraId)
        cameraId)
      cameraId)
    cameraId

/- The caches beside the segments, for one camera. -/
def dropBeside (live : Live) (cameraId : String) : Live :=
  dropStreamGetLogged
    (dropPlaylistLogged
      (dropUpdates (dropPlaylist live cameraId) cameraId)
      cameraId)
    cameraId

def evictStaleCameras (live : Live) (now : Nat) : Live :=
  (staleCameras live.segments now).foldl dropBeside
    (evictStaleSegments live now)

/- The operations on the caches, at any instants. -/
inductive CacheOp where
  | pushSegment
      (cameraId filename : String)
      (body : List UInt8)
      (maxPerCamera : Nat)
      (maxTotalBytes : Int)
      (now : Nat)
  | cleanupCamera (cameraId : String)
  | evictStaleCameras (now : Nat)
  | evictCaches (now : Nat)
  deriving DecidableEq, Repr

def applyCacheOp (live : Live) : CacheOp → Live
| .pushSegment cameraId filename body maxPerCamera
    maxTotalBytes now =>
    { live with
      segments :=
        pushSegment live.segments cameraId filename body now
          (capsFor maxPerCamera maxTotalBytes) }
| .cleanupCamera cameraId => cleanupCache live cameraId
| .evictStaleCameras now => evictStaleCameras live now
| .evictCaches now => evictStaleCameras (evictPlaylists live) now

/- The store a run of operations leaves. -/
def storeAfter (ops : List CacheOp) : SegmentStore :=
  (Run.exec applyCacheOp Live.empty ops).segments

/- `recompute_bytes`. -/
def storedBytes (store : SegmentStore) : Int :=
  Tally.total bytes store.cameras

def segmentCount
    (store : SegmentStore)
    (cameraId : String) : Nat :=
  ((store.cameras.lookup cameraId).map List.length).getD 0

/- The names come in strictly increasing order. -/
def Ordered (bucket : Bucket) : Prop :=
  bucket.Pairwise
    (fun a b => segmentBefore a.filename b.filename = true)

@[simp] theorem bytes_nil : bytes [] = 0 := by
  rfl

@[simp] theorem bytes_cons
    (segment : Segment)
    (bucket : Bucket) :
    bytes (segment :: bucket) =
      segment.body.length + bytes bucket := by
  simp [bytes]

theorem bytes_append (first second : Bucket) :
    bytes (first ++ second) = bytes first + bytes second := by
  simp [bytes]

theorem mem_insertSegment
    {new segment : Segment}
    {bucket : Bucket}
    (hMem : segment ∈ insertSegment new bucket) :
    segment = new ∨ segment ∈ bucket := by
  induction bucket with
  | nil => exact Or.inl (List.mem_singleton.mp hMem)
  | cons old rest ih =>
      unfold insertSegment at hMem
      split at hMem
      · rcases List.mem_cons.mp hMem with hNew | hRest
        · exact Or.inl hNew
        · exact Or.inr (List.mem_cons_of_mem old hRest)
      · split at hMem
        · exact List.mem_cons.mp hMem
        · rcases List.mem_cons.mp hMem with hOld | hRest
          · exact Or.inr (List.mem_cons.mpr (Or.inl hOld))
          · rcases ih hRest with hNew | hKept
            · exact Or.inl hNew
            · exact Or.inr (List.mem_cons_of_mem old hKept)

theorem ordered_insertSegment
    {new : Segment}
    {bucket : Bucket}
    (hOrdered : Ordered bucket) :
    Ordered (insertSegment new bucket) := by
  induction bucket with
  | nil => exact List.pairwise_singleton _ _
  | cons old rest ih =>
      rcases List.pairwise_cons.mp hOrdered with ⟨hHead, hRest⟩
      unfold insertSegment
      split
      · rename_i hSame
        apply List.pairwise_cons.mpr
        rw [hSame] at hHead
        exact ⟨hHead, hRest⟩
      · rename_i hOther
        split
        · rename_i hBefore
          apply List.pairwise_cons.mpr
          refine ⟨?_, hOrdered⟩
          intro segment hMem
          rcases List.mem_cons.mp hMem with rfl | hMem
          · exact hBefore
          · exact segmentBefore_trans hBefore
              (hHead segment hMem)
        · rename_i hNot
          apply List.pairwise_cons.mpr
          refine ⟨?_, ih hRest⟩
          intro segment hMem
          rcases mem_insertSegment hMem with rfl | hMem
          · exact segmentBefore_of_not hNot
              (fun hSame => hOther hSame.symm)
          · exact hHead segment hMem

/- A name before all of a bucket's is not in the bucket. -/
theorem find_none_of_before
    {name : String}
    {bucket : Bucket}
    (hBefore :
      ∀ segment ∈ bucket,
        segmentBefore name segment.filename = true) :
    bucket.find? (·.filename == name) = none := by
  apply List.find?_eq_none.mpr
  intro segment hMem hSame
  exact ne_of_segmentBefore (hBefore segment hMem)
    (eq_of_beq hSame).symm

/- The size that a new segment of this name replaces. -/
def replaced (name : String) (bucket : Bucket) : Nat :=
  ((bucket.find? (·.filename == name)).map
    (fun segment => segment.body.length)).getD 0

theorem bytes_insertSegment
    (new : Segment)
    {bucket : Bucket}
    (hOrdered : Ordered bucket) :
    bytes (insertSegment new bucket) =
      bytes bucket + new.body.length -
        replaced new.filename bucket := by
  induction bucket with
  | nil => simp [insertSegment, replaced]
  | cons old rest ih =>
      rcases List.pairwise_cons.mp hOrdered with ⟨hHead, hRest⟩
      unfold insertSegment
      split
      · rename_i hSame
        have hFound :
            replaced new.filename (old :: rest) =
              old.body.length := by
          simp [replaced, hSame]
        rw [hFound, bytes_cons, bytes_cons]
        omega
      · rename_i hOther
        split
        · rename_i hBefore
          have hNone :
              (old :: rest).find?
                (·.filename == new.filename) = none := by
            apply find_none_of_before
            intro segment hMem
            rcases List.mem_cons.mp hMem with rfl | hMem
            · exact hBefore
            · exact segmentBefore_trans hBefore
                (hHead segment hMem)
          have hFound :
              replaced new.filename (old :: rest) = 0 := by
            unfold replaced
            rw [hNone]
            rfl
          rw [hFound, bytes_cons new]
          omega
        · have hFound :
              replaced new.filename (old :: rest) =
                replaced new.filename rest := by
            simp [replaced, hOther]
          rw [hFound, bytes_cons, bytes_cons, ih hRest]
          omega

/- In an ordered bucket a name stands for one segment. -/
theorem eq_of_filename
    {bucket : Bucket}
    {a b : Segment}
    (hOrdered : Ordered bucket)
    (hA : a ∈ bucket)
    (hB : b ∈ bucket)
    (hSame : a.filename = b.filename) :
    a = b := by
  by_contra hNe
  have hSymm :
      Std.Symm
        (fun x y : Segment => x.filename ≠ y.filename) :=
    ⟨fun _ _ h => h.symm⟩
  have hPairs :
      bucket.Pairwise
        (fun x y => x.filename ≠ y.filename) :=
    hOrdered.imp (fun h => ne_of_segmentBefore h)
  exact hPairs.forall hA hB hNe hSame

/- Removing a name takes its segment's size off. -/
theorem bytes_filter
    {bucket : Bucket}
    {segment : Segment}
    (hOrdered : Ordered bucket)
    (hMem : segment ∈ bucket) :
    bytes (bucket.filter (·.filename ≠ segment.filename)) =
      bytes bucket - segment.body.length := by
  induction bucket with
  | nil => exact absurd hMem List.not_mem_nil
  | cons old rest ih =>
      rcases List.pairwise_cons.mp hOrdered with ⟨hHead, hRest⟩
      rcases List.mem_cons.mp hMem with rfl | hMem
      · have hKept :
            rest.filter (·.filename ≠ segment.filename) =
              rest := by
          apply List.filter_eq_self.mpr
          intro other hOther
          exact decide_eq_true
            (ne_of_segmentBefore (hHead other hOther)).symm
        rw [List.filter_cons_of_neg (by simp), hKept,
          bytes_cons]
        omega
      · have hOther : old.filename ≠ segment.filename :=
          ne_of_segmentBefore (hHead segment hMem)
        rw [List.filter_cons_of_pos (by simpa using hOther),
          bytes_cons, bytes_cons, ih hRest hMem]
        omega

--------------------
-- The Invariant
--------------------

structure StoreInv (store : SegmentStore) : Prop where
  total : store.byteTotal = storedBytes store
  ordered :
    ∀ cameraId bucket,
      store.cameras.lookup cameraId = some bucket →
        Ordered bucket

/- Every bucket is what is left of an earlier one. -/
def Shrinks (before after : SegmentStore) : Prop :=
  ∀ cameraId bucket',
    after.cameras.lookup cameraId = some bucket' →
      ∃ bucket,
        before.cameras.lookup cameraId = some bucket ∧
          bucket'.Sublist bucket

theorem shrinks_refl (store : SegmentStore) :
    Shrinks store store :=
  fun _ bucket hFound => ⟨bucket, hFound, List.Sublist.refl _⟩

theorem shrinks_trans
    {first second third : SegmentStore}
    (hFirst : Shrinks first second)
    (hSecond : Shrinks second third) :
    Shrinks first third := by
  intro cameraId bucket'' hFound
  rcases hSecond cameraId bucket'' hFound with
    ⟨bucket', hFound', hSub'⟩
  rcases hFirst cameraId bucket' hFound' with
    ⟨bucket, hFound'', hSub⟩
  exact ⟨bucket, hFound'', hSub'.trans hSub⟩

theorem ordered_of_shrinks
    {before after : SegmentStore}
    (hInv : StoreInv before)
    (hShrinks : Shrinks before after)
    (cameraId : String)
    (bucket' : Bucket)
    (hFound : after.cameras.lookup cameraId = some bucket') :
    Ordered bucket' := by
  rcases hShrinks cameraId bucket' hFound with
    ⟨bucket, hFound', hSub⟩
  exact (hInv.ordered cameraId bucket hFound').sublist hSub

/- What one camera holds of the total. -/
theorem held_of_lookup
    {store : SegmentStore}
    {cameraId : String}
    {bucket : Bucket}
    (hFound :
      store.cameras.lookup cameraId = some bucket) :
    Tally.held bytes store.cameras cameraId =
      bytes bucket := by
  unfold Tally.held
  rw [hFound]
  rfl

/- A bucket that is replaced by a part of itself. -/
theorem shrinks_insert
    {store : SegmentStore}
    {cameraId : String}
    {bucket left : Bucket}
    {byteTotal : Int}
    (hFound : store.cameras.lookup cameraId = some bucket)
    (hSub : left.Sublist bucket) :
    Shrinks store
      { cameras := store.cameras.insert cameraId left
        byteTotal := byteTotal } := by
  intro other bucket' hOther
  by_cases hSame : other = cameraId
  · subst hSame
    rw [AList.lookup_insert] at hOther
    rw [← Option.some.inj hOther]
    exact ⟨bucket, hFound, hSub⟩
  · rw [AList.lookup_insert_ne hSame] at hOther
    exact ⟨bucket', hOther, List.Sublist.refl _⟩

theorem lookup_of_erase
    {store : SegmentStore}
    {cameraId other : String}
    {bucket : Bucket}
    (hFound :
      (store.cameras.erase cameraId).lookup other =
        some bucket) :
    other ≠ cameraId ∧
      store.cameras.lookup other = some bucket := by
  by_cases hSame : other = cameraId
  · rw [hSame, AList.lookup_erase] at hFound
    contradiction
  · rw [AList.lookup_erase_ne hSame] at hFound
    exact ⟨hSame, hFound⟩

theorem shrinks_erase
    {store : SegmentStore}
    {cameraId : String}
    {byteTotal : Int} :
    Shrinks store
      { cameras := store.cameras.erase cameraId
        byteTotal := byteTotal } := by
  intro other bucket' hFound
  exact ⟨bucket', (lookup_of_erase hFound).2,
    List.Sublist.refl _⟩

--------------------
-- The Per-Camera Pass
--------------------

theorem storeInv_insertPushed
    {store : SegmentStore}
    (cameraId : String)
    (new : Segment)
    (hInv : StoreInv store) :
    StoreInv (insertPushed store cameraId new) := by
  have hOrdered :
      Ordered ((store.cameras.lookup cameraId).getD []) := by
    cases hFound : store.cameras.lookup cameraId with
    | none => exact List.Pairwise.nil
    | some bucket => exact hInv.ordered cameraId bucket hFound
  have hHeld :
      Tally.held bytes store.cameras cameraId =
        bytes ((store.cameras.lookup cameraId).getD []) := by
    unfold Tally.held
    cases store.cameras.lookup cameraId with
    | none => rfl
    | some bucket => rfl
  constructor
  · have hTotal := hInv.total
    have hBytes := bytes_insertSegment new hOrdered
    unfold storedBytes at hTotal ⊢
    unfold insertPushed
    dsimp only
    rw [Tally.total_insert, hHeld, hBytes, hTotal]
    unfold replaced
    omega
  · intro other bucket hFound
    unfold insertPushed at hFound
    dsimp only at hFound
    by_cases hSame : other = cameraId
    · subst hSame
      rw [AList.lookup_insert] at hFound
      rw [← Option.some.inj hFound]
      exact ordered_insertSegment hOrdered
    · rw [AList.lookup_insert_ne hSame] at hFound
      exact hInv.ordered other bucket hFound

theorem shrinks_evictPerCamera
    (store : SegmentStore)
    (cameraId : String)
    (maxPerCamera : Nat) :
    Shrinks store
      (evictPerCamera store cameraId maxPerCamera) := by
  unfold evictPerCamera
  split
  · exact shrinks_refl store
  · rename_i bucket hFound
    split
    · exact shrinks_refl store
    · exact shrinks_insert hFound (List.drop_sublist _ _)

theorem storeInv_evictPerCamera
    {store : SegmentStore}
    (cameraId : String)
    (maxPerCamera : Nat)
    (hInv : StoreInv store) :
    StoreInv (evictPerCamera store cameraId maxPerCamera) := by
  refine ⟨?_, ordered_of_shrinks hInv
    (shrinks_evictPerCamera store cameraId maxPerCamera)⟩
  have hTotal := hInv.total
  unfold storedBytes at hTotal ⊢
  unfold evictPerCamera
  split
  · exact hTotal
  · rename_i bucket hFound
    split
    · exact hTotal
    · have hSplit :
          bytes bucket =
            bytes (bucket.take (bucket.length - maxPerCamera)) +
              bytes
                (bucket.drop (bucket.length - maxPerCamera)) := by
        rw [← bytes_append, List.take_append_drop]
      dsimp only
      rw [Tally.total_insert, held_of_lookup hFound]
      omega

/- A candidate's name stands for the candidate, if stored. -/
def Fits
    (victims : List Candidate)
    (store : SegmentStore) : Prop :=
  ∀ victim ∈ victims, ∀ bucket segment,
    store.cameras.lookup victim.cameraId = some bucket →
      segment ∈ bucket →
        segment.filename = victim.segment.filename →
          segment = victim.segment

theorem mem_candidates
    {store : SegmentStore}
    {victim : Candidate} :
    victim ∈ candidates store ↔
      ∃ bucket,
        store.cameras.lookup victim.cameraId = some bucket ∧
          victim.segment ∈ bucket := by
  unfold candidates
  rw [List.mem_insertionSort, List.mem_flatMap]
  constructor
  · rintro ⟨⟨cameraId, bucket⟩, hEntry, hVictim⟩
    rcases List.mem_map.mp hVictim with ⟨segment, hMem, rfl⟩
    exact ⟨bucket, AList.mem_lookup_iff.mpr hEntry, hMem⟩
  · rintro ⟨bucket, hFound, hMem⟩
    refine ⟨⟨victim.cameraId, bucket⟩,
      AList.mem_lookup_iff.mp hFound, ?_⟩
    exact List.mem_map.mpr ⟨victim.segment, hMem, rfl⟩

theorem fits_candidates
    {store : SegmentStore}
    (hInv : StoreInv store) :
    Fits (candidates store) store := by
  intro victim hVictim bucket segment hFound hMem hSame
  rcases mem_candidates.mp hVictim with
    ⟨bucket', hFound', hVictimMem⟩
  rw [hFound] at hFound'
  rw [← Option.some.inj hFound'] at hVictimMem
  exact eq_of_filename
    (hInv.ordered victim.cameraId bucket hFound) hMem
    hVictimMem hSame

/- What is stored after one candidate was evicted. -/
theorem lookup_evictCandidate
    {store : SegmentStore}
    {victim : Candidate}
    {cameraId : String}
    {bucket' : Bucket}
    (hFound :
      (evictCandidate store victim).cameras.lookup cameraId =
        some bucket') :
    ∃ bucket,
      store.cameras.lookup cameraId = some bucket ∧
        bucket'.Sublist bucket ∧
          (cameraId = victim.cameraId →
            ∀ segment ∈ bucket',
              segment.filename ≠ victim.segment.filename) := by
  unfold evictCandidate at hFound
  split at hFound
  · rename_i hNone
    refine ⟨bucket', hFound, List.Sublist.refl _, ?_⟩
    rintro rfl
    rw [hNone] at hFound
    contradiction
  · rename_i bucket hOld
    dsimp only at hFound
    split at hFound
    · rcases lookup_of_erase hFound with ⟨hOther, hKept⟩
      exact ⟨bucket', hKept, List.Sublist.refl _,
        fun hSame => absurd hSame hOther⟩
    · by_cases hSame : cameraId = victim.cameraId
      · subst hSame
        rw [AList.lookup_insert] at hFound
        rw [← Option.some.inj hFound]
        refine ⟨bucket, hOld, List.filter_sublist, ?_⟩
        intro _ segment hMem
        exact of_decide_eq_true (List.mem_filter.mp hMem).2
      · rw [AList.lookup_insert_ne hSame] at hFound
        exact ⟨bucket', hFound, List.Sublist.refl _,
          fun h => absurd h hSame⟩

theorem shrinks_evictCandidate
    (store : SegmentStore)
    (victim : Candidate) :
    Shrinks store (evictCandidate store victim) := by
  intro cameraId bucket' hFound
  rcases lookup_evictCandidate hFound with
    ⟨bucket, hOld, hSub, _⟩
  exact ⟨bucket, hOld, hSub⟩

theorem fits_shrinks
    {store store' : SegmentStore}
    {victims : List Candidate}
    (hFits : Fits victims store)
    (hShrinks : Shrinks store store') :
    Fits victims store' := by
  intro victim hVictim bucket' segment hFound hMem hSame
  rcases hShrinks victim.cameraId bucket' hFound with
    ⟨bucket, hOld, hSub⟩
  exact hFits victim hVictim bucket segment hOld
    (hSub.subset hMem) hSame

/- What is left of a bucket without the candidate. -/
theorem bytes_without
    {bucket : Bucket}
    {segment : Segment}
    (hOrdered : Ordered bucket)
    (hOnly :
      ∀ other ∈ bucket,
        other.filename = segment.filename →
          other = segment) :
    bytes (bucket.filter (·.filename ≠ segment.filename)) =
      if (bucket.filter
            (·.filename ≠ segment.filename)).length <
          bucket.length then
        bytes bucket - segment.body.length
      else
        bytes bucket := by
  by_cases hMem : segment ∈ bucket
  · have hShort :
        (bucket.filter
          (·.filename ≠ segment.filename)).length <
            bucket.length :=
      List.length_filter_lt_length_iff_exists.mpr
        ⟨segment, hMem, by simp⟩
    rw [if_pos hShort, bytes_filter hOrdered hMem]
  · have hAll :
        bucket.filter (·.filename ≠ segment.filename) =
          bucket := by
      apply List.filter_eq_self.mpr
      intro other hOther
      apply decide_eq_true
      intro hSame
      rw [← hOnly other hOther hSame] at hMem
      exact hMem hOther
    rw [hAll, if_neg (Nat.lt_irrefl _)]

/- A bucket is replaced by what is left, or dropped. -/
theorem total_left
    {store : SegmentStore}
    {cameraId : String}
    {bucket : Bucket}
    (hFound : store.cameras.lookup cameraId = some bucket)
    (left : Bucket) :
    Tally.total bytes
        (if left.isEmpty then store.cameras.erase cameraId
          else store.cameras.insert cameraId left) =
      Tally.total bytes store.cameras - bytes bucket +
        bytes left := by
  have hHeld := held_of_lookup hFound
  split
  · rename_i hEmpty
    rw [List.isEmpty_iff.mp hEmpty, bytes_nil,
      Tally.total_erase, hHeld]
    omega
  · rw [Tally.total_insert, hHeld]

theorem storeInv_evictCandidate
    {store : SegmentStore}
    {victim : Candidate}
    {rest : List Candidate}
    (hInv : StoreInv store)
    (hFits : Fits (victim :: rest) store) :
    StoreInv (evictCandidate store victim) := by
  refine ⟨?_, ordered_of_shrinks hInv
    (shrinks_evictCandidate store victim)⟩
  have hTotal := hInv.total
  unfold storedBytes at hTotal ⊢
  unfold evictCandidate
  split
  · exact hTotal
  · rename_i bucket hFound
    have hLeft :=
      bytes_without
        (hInv.ordered victim.cameraId bucket hFound)
        (fun other hMem hSame =>
          hFits victim List.mem_cons_self bucket other hFound
            hMem hSame)
    dsimp only
    rw [total_left hFound, hLeft]
    split <;> omega

theorem shrinks_evictUntil
    (mark : Int)
    (victims : List Candidate)
    (store : SegmentStore) :
    Shrinks store (evictUntil mark store victims) := by
  induction victims generalizing store with
  | nil => exact shrinks_refl store
  | cons victim rest ih =>
      unfold evictUntil
      split
      · exact shrinks_refl store
      · exact shrinks_trans (shrinks_evictCandidate store victim)
          (ih _)

theorem storeInv_evictUntil
    {mark : Int}
    {victims : List Candidate}
    {store : SegmentStore}
    (hInv : StoreInv store)
    (hFits : Fits victims store) :
    StoreInv (evictUntil mark store victims) := by
  induction victims generalizing store with
  | nil => exact hInv
  | cons victim rest ih =>
      unfold evictUntil
      split
      · exact hInv
      · have hRest : Fits rest store := fun other hOther =>
          hFits other (List.mem_cons_of_mem victim hOther)
        exact ih (storeInv_evictCandidate hInv hFits)
          (fits_shrinks hRest
            (shrinks_evictCandidate store victim))

theorem shrinks_evictGlobalOldest
    (store : SegmentStore)
    (caps : Caps) :
    Shrinks store (evictGlobalOldest store caps) := by
  unfold evictGlobalOldest
  split
  · exact shrinks_refl store
  · exact shrinks_evictUntil caps.lowWater _ store

theorem storeInv_evictGlobalOldest
    {store : SegmentStore}
    (caps : Caps)
    (hInv : StoreInv store) :
    StoreInv (evictGlobalOldest store caps) := by
  unfold evictGlobalOldest
  split
  · exact hInv
  · exact storeInv_evictUntil hInv (fits_candidates hInv)

/- A push before the global pass. -/
def trimmedPush
    (store : SegmentStore)
    (cameraId : String)
    (new : Segment)
    (maxPerCamera : Nat) : SegmentStore :=
  evictPerCamera (insertPushed store cameraId new) cameraId
    maxPerCamera

theorem storeInv_trimmedPush
    {store : SegmentStore}
    (cameraId : String)
    (new : Segment)
    (maxPerCamera : Nat)
    (hInv : StoreInv store) :
    StoreInv (trimmedPush store cameraId new maxPerCamera) :=
  storeInv_evictPerCamera cameraId maxPerCamera
    (storeInv_insertPushed cameraId new hInv)

theorem storeInv_pushSegment
    {store : SegmentStore}
    (cameraId filename : String)
    (body : List UInt8)
    (now : Nat)
    (caps : Caps)
    (hInv : StoreInv store) :
    StoreInv
      (pushSegment store cameraId filename body now caps) :=
  storeInv_evictGlobalOldest caps
    (storeInv_trimmedPush cameraId ⟨filename, body, now⟩
      caps.maxPerCamera hInv)

theorem storeInv_dropSegments
    {live : Live}
    (cameraId : String)
    (hInv : StoreInv live.segments) :
    StoreInv (dropSegments live cameraId).segments := by
  unfold dropSegments
  split
  · exact hInv
  · rename_i bucket hFound
    constructor
    · have hTotal := hInv.total
      unfold storedBytes at hTotal ⊢
      dsimp only
      rw [Tally.total_erase, held_of_lookup hFound, hTotal]
    · exact ordered_of_shrinks hInv shrinks_erase

theorem lookup_eraseAll
    {cameraIds : List String}
    {table : AList (fun _ : String => Bucket)}
    {cameraId : String}
    {bucket : Bucket}
    (hFound :
      (eraseAll cameraIds table).lookup cameraId =
        some bucket) :
    table.lookup cameraId = some bucket := by
  induction cameraIds generalizing table with
  | nil => exact hFound
  | cons first rest ih =>
      have hErased := ih hFound
      by_cases hSame : cameraId = first
      · rw [hSame, AList.lookup_erase] at hErased
        contradiction
      · rw [AList.lookup_erase_ne hSame] at hErased
        exact hErased

/- The sweep counts its own total. -/
theorem storeInv_evictStaleSegments
    {live : Live}
    (now : Nat)
    (hInv : StoreInv live.segments) :
    StoreInv (evictStaleSegments live now).segments where
  total := rfl
  ordered := by
    intro cameraId bucket hFound
    exact hInv.ordered cameraId bucket
      (lookup_eraseAll hFound)

theorem segments_dropBeside
    (cameraIds : List String)
    (live : Live) :
    (cameraIds.foldl dropBeside live).segments =
      live.segments := by
  induction cameraIds generalizing live with
  | nil => rfl
  | cons first rest ih => exact ih (dropBeside live first)

theorem storeInv_evictStaleCameras
    {live : Live}
    (now : Nat)
    (hInv : StoreInv live.segments) :
    StoreInv (evictStaleCameras live now).segments := by
  unfold evictStaleCameras
  rw [segments_dropBeside]
  exact storeInv_evictStaleSegments now hInv

theorem storeInv_applyCacheOp
    (live : Live)
    (op : CacheOp)
    (hInv : StoreInv live.segments) :
    StoreInv (applyCacheOp live op).segments := by
  cases op with
  | pushSegment cameraId filename body maxPerCamera
      maxTotalBytes now =>
      exact storeInv_pushSegment cameraId filename body now _
        hInv
  | cleanupCamera cameraId =>
      exact storeInv_dropSegments cameraId hInv
  | evictStaleCameras now =>
      exact storeInv_evictStaleCameras now hInv
  | evictCaches now =>
      have hPlaylists :
          StoreInv (evictPlaylists live).segments := by
        unfold evictPlaylists
        exact hInv
      exact storeInv_evictStaleCameras now hPlaylists

theorem storeInv_empty : StoreInv Live.empty.segments where
  total := rfl
  ordered := by
    intro cameraId bucket hFound
    have hNone :
        Live.empty.segments.cameras.lookup cameraId = none :=
      AList.lookup_empty cameraId
    rw [hNone] at hFound
    contradiction

/- The invariant holds after every run of operations. -/
theorem storeInv_storeAfter (ops : List CacheOp) :
    StoreInv (storeAfter ops) := by
  unfold storeAfter
  have hRun :
      (fun live : Live => StoreInv live.segments)
        (Run.exec applyCacheOp Live.empty ops) :=
    Run.invariant_exec storeInv_applyCacheOp ops storeInv_empty
  exact hRun

--------------------
-- The Store over Runs
--------------------

end Hls

end SentinelCommand
