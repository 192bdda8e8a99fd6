import Mathlib.Algebra.BigOperators.Group.List.Basic
import SentinelCommand.Hls.SegmentStore
import SentinelCommand.Lib.Rank

/-
  Whether a segment that was just pushed is there to be
  fetched.

  The per-camera pass keeps the highest sequence numbers, and
  the global pass the latest arrivals. A push with a number
  below the cached ones is the first that the per-camera pass
  takes.

  Main declarations:
    * `Hls.segment`
    * `Hls.pushed_is_live_iff`
    * `Hls.restarted_numbers_evicted`
-/

--------------------
-- Fetching a Segment
--------------------

namespace SentinelCommand

namespace Hls

/- `HlsCache::segment`. -/
def segment
    (store : SegmentStore)
    (cameraId filename : String) : Option (List UInt8) :=
  ((store.cameras.lookup cameraId).bind
    (fun bucket =>
      bucket.find? (·.filename == filename))).map
    Segment.body

/- How many of the camera's segments come after a name. -/
def namesAfter
    (store : SegmentStore)
    (cameraId filename : String) : Nat :=
  ((store.cameras.lookup cameraId).getD []).countP
    (fun cached => segmentBefore filename cached.filename)

/- The global pass takes one candidate before the other. -/
def Candidate.ahead (a b : Candidate) : Bool :=
  a.before b && !b.before a

def sizes (victims : List Candidate) : Int :=
  (victims.map
    (fun victim => (victim.segment.body.length : Int))).sum

/- What is stored from a candidate on, in the pass's order. -/
def bytesFrom
    (store : SegmentStore)
    (target : Candidate) : Int :=
  sizes
    ((candidates store).filter
      (fun victim => !victim.ahead target))

def Stored
    (store : SegmentStore)
    (candidate : Candidate) : Prop :=
  ∃ bucket,
    store.cameras.lookup candidate.cameraId = some bucket ∧
      candidate.segment ∈ bucket

/- Two candidates are of two names or two cameras. -/
def Candidate.Apart (a b : Candidate) : Prop :=
  a.cameraId ≠ b.cameraId ∨
    a.segment.filename ≠ b.segment.filename

--------------------
-- The Order of the Global Pass
--------------------

theorem ahead_strict : Rank.Strict Candidate.ahead where
  irrefl := fun a => Bool.and_not_self _
  asymm := by
    intro a b hAhead
    rw [Candidate.ahead, Bool.and_eq_true,
      Bool.not_eq_true'] at hAhead
    rw [Candidate.ahead, hAhead.2, Bool.false_and]

/- Instants, then cameras, then names, then sizes. -/
def candidateCmp : Candidate → Candidate → Ordering :=
  compareLex (compareOn (·.segment.storedAt))
    (compareLex (compareOn Candidate.cameraId)
      (compareLex
        (compareOn
          (fun a => (sequence a.segment.filename).length))
        (compareLex
          (compareOn
            (fun a =>
              String.ofList (sequence a.segment.filename)))
          (compareLex (compareOn (·.segment.filename))
            (compareOn (·.segment.body.length))))))

theorem candidateCmp_def (a b : Candidate) :
    candidateCmp a b =
      (compare a.segment.storedAt b.segment.storedAt).then
        ((compare a.cameraId b.cameraId).then
          ((segmentCmp a.segment.filename
              b.segment.filename).then
            (compare a.segment.body.length
              b.segment.body.length))) := by
  rw [segmentCmp_def, Ordering.then_assoc,
    Ordering.then_assoc]
  rfl

theorem candidateCmp_swap (a b : Candidate) :
    candidateCmp b a = (candidateCmp a b).swap := by
  unfold candidateCmp
  exact Std.OrientedCmp.eq_swap

theorem before_iff (a b : Candidate) :
    a.before b = true ↔ (candidateCmp a b).isLE = true := by
  rw [candidateCmp_def]
  simp only [Ordering.isLE_then_iff_or, Nat.compare_eq_lt,
    Nat.compare_eq_eq, compare_text_eq_lt, compare_text_eq_eq,
    segmentCmp_eq_iff, ← segmentBefore_iff, Nat.isLE_compare]
  unfold Candidate.before
  simp only [Bool.or_eq_true, Bool.and_eq_true,
    decide_eq_true_eq, beq_iff_eq]

theorem before_total (a b : Candidate) :
    a.before b = true ∨ b.before a = true := by
  rw [before_iff, before_iff, candidateCmp_swap a b,
    Ordering.isLE_swap]
  cases candidateCmp a b with
  | lt => exact Or.inl rfl
  | eq => exact Or.inl rfl
  | gt => exact Or.inr rfl

theorem before_trans
    {a b c : Candidate}
    (hFirst : a.before b = true)
    (hSecond : b.before c = true) :
    a.before c = true := by
  rw [before_iff] at hFirst hSecond ⊢
  unfold candidateCmp at hFirst hSecond ⊢
  exact Std.TransCmp.isLE_trans hFirst hSecond

instance :
    Std.Total (fun a b : Candidate => a.before b = true) :=
  ⟨before_total⟩

instance :
    IsTrans Candidate (fun a b => a.before b = true) :=
  ⟨fun _ _ _ => before_trans⟩

/- Candidates that are apart do not stand in one place. -/
theorem ahead_of_before
    {a b : Candidate}
    (hBefore : a.before b = true)
    (hApart : a.Apart b) :
    a.ahead b = true := by
  rw [Candidate.ahead, hBefore, Bool.true_and,
    Bool.not_eq_true']
  by_contra hBack
  rw [Bool.not_eq_false, before_iff, candidateCmp_swap a b,
    Ordering.isLE_swap] at hBack
  rw [before_iff] at hBefore
  have hTie : candidateCmp a b = .eq := by
    cases hCmp : candidateCmp a b with
    | lt =>
        rw [hCmp] at hBack
        cases hBack
    | eq => rfl
    | gt =>
        rw [hCmp] at hBefore
        cases hBefore
  rw [candidateCmp_def] at hTie
  simp only [Ordering.then_eq_eq, compare_text_eq_eq,
    segmentCmp_eq_iff] at hTie
  exact hApart.elim (fun hNe => hNe hTie.2.1)
    (fun hNe => hNe hTie.2.2.1)

theorem stored_iff_candidate
    {store : SegmentStore}
    {candidate : Candidate} :
    Stored store candidate ↔ candidate ∈ candidates store :=
  mem_candidates.symm

/- No two candidates have one name. -/
theorem apart_candidates
    {store : SegmentStore}
    (hInv : StoreInv store) :
    (candidates store).Pairwise Candidate.Apart := by
  have hSymm : ∀ a b : Candidate, a.Apart b → b.Apart a :=
    fun _ _ hApart =>
      hApart.imp (fun hNe => hNe.symm) (fun hNe => hNe.symm)
  unfold candidates
  rw [(List.perm_insertionSort _ _).pairwise_iff (hSymm _ _),
    List.pairwise_flatMap]
  constructor
  · rintro ⟨cameraId, bucket⟩ hEntry
    have hOrdered :=
      hInv.ordered cameraId bucket
        (AList.mem_lookup_iff.mpr hEntry)
    rw [List.pairwise_map]
    exact
      hOrdered.imp
        (fun hBefore => Or.inr (ne_of_segmentBefore hBefore))
  · have hKeys :=
      List.nodupKeys_iff_pairwise.mp store.cameras.nodupKeys
    refine hKeys.imp ?_
    intro first second hNe a hA b hB
    rcases List.mem_map.mp hA with ⟨segment, -, rfl⟩
    rcases List.mem_map.mp hB with ⟨other, -, rfl⟩
    exact Or.inl hNe

/- The pass goes from the oldest arrival to the latest. -/
theorem ahead_candidates
    {store : SegmentStore}
    (hInv : StoreInv store) :
    (candidates store).Pairwise
      (fun a b => a.ahead b = true) := by
  have hSorted :
      (candidates store).Pairwise
        (fun a b => a.before b = true) :=
    List.pairwise_insertionSort _ _
  exact
    (hSorted.and (apart_candidates hInv)).imp
      (fun hBoth => ahead_of_before hBoth.1 hBoth.2)

/- The candidates are all there is. -/
theorem sizes_candidates (store : SegmentStore) :
    sizes (candidates store) = storedBytes store := by
  unfold sizes candidates storedBytes Tally.total
  rw [((List.perm_insertionSort _ _).map _).sum_eq]
  induction store.cameras.entries with
  | nil => rfl
  | cons entry rest ih =>
      rw [List.flatMap_cons, List.map_append, List.sum_append,
        ih, List.map_map, List.map_cons, List.sum_cons]
      rfl

--------------------
-- Eviction in Order
--------------------

variable {store : SegmentStore}
variable {candidate victim target : Candidate}
variable {mark : Int}

/- One candidate is gone, and nothing else. -/
theorem stored_evictCandidate_iff :
    Stored (evictCandidate store victim) candidate ↔
      Stored store candidate ∧ candidate.Apart victim := by
  constructor
  · rintro ⟨bucket', hFound, hMem⟩
    rcases lookup_evictCandidate hFound with
      ⟨bucket, hBefore, hSub, hGone⟩
    refine ⟨⟨bucket, hBefore, hSub.subset hMem⟩, ?_⟩
    by_cases hCamera : candidate.cameraId = victim.cameraId
    · exact Or.inr (hGone hCamera candidate.segment hMem)
    · exact Or.inl hCamera
  · rintro ⟨⟨bucket, hFound, hMem⟩, hApart⟩
    unfold evictCandidate
    split
    · exact ⟨bucket, hFound, hMem⟩
    · rename_i old hOld
      by_cases hCamera : candidate.cameraId = victim.cameraId
      · have hName :
            candidate.segment.filename ≠
              victim.segment.filename :=
          hApart.resolve_left (fun hNe => hNe hCamera)
        rw [hCamera, hOld] at hFound
        have hLeft :
            candidate.segment ∈
              old.filter
                (·.filename ≠ victim.segment.filename) := by
          rw [Option.some.inj hFound]
          exact
            List.mem_filter.mpr ⟨hMem, decide_eq_true hName⟩
        have hSome :
            (old.filter
              (·.filename ≠
                victim.segment.filename)).isEmpty = false := by
          rw [List.isEmpty_eq_false_iff]
          exact List.ne_nil_of_mem hLeft
        refine ⟨_, ?_, hLeft⟩
        dsimp only
        rw [hSome, hCamera]
        exact AList.lookup_insert _
      · refine ⟨bucket, ?_, hMem⟩
        dsimp only
        split
        · rw [AList.lookup_erase_ne hCamera, hFound]
        · rw [AList.lookup_insert_ne hCamera, hFound]

theorem byteTotal_evictCandidate
    (hStored : Stored store victim) :
    (evictCandidate store victim).byteTotal =
      store.byteTotal - victim.segment.body.length := by
  rcases hStored with ⟨bucket, hFound, hMem⟩
  unfold evictCandidate
  rw [hFound]
  dsimp only
  rw [if_pos]
  exact
    List.length_filter_lt_length_iff_exists.mpr
      ⟨victim.segment, hMem, by simp⟩

theorem sizes_nonneg (victims : List Candidate) :
    0 ≤ sizes victims := by
  unfold sizes
  induction victims with
  | nil => exact Int.le_refl 0
  | cons victim rest ih =>
      rw [List.map_cons, List.sum_cons]
      omega

theorem sizes_append (first second : List Candidate) :
    sizes (first ++ second) = sizes first + sizes second := by
  unfold sizes
  rw [List.map_append, List.sum_append]

theorem sizes_cons
    (victim : Candidate)
    (rest : List Candidate) :
    sizes (victim :: rest) =
      victim.segment.body.length + sizes rest := by
  unfold sizes
  rw [List.map_cons, List.sum_cons]

/-
  The pass stops before it comes to a candidate when what is
  stored from there on is down to the mark.
-/
theorem stored_evictUntil_iff
    {front back : List Candidate}
    (hStored :
      ∀ candidate ∈ front ++ target :: back,
        Stored store candidate)
    (hApart :
      (front ++ target :: back).Pairwise Candidate.Apart)
    (hTotal :
      store.byteTotal = sizes (front ++ target :: back)) :
    Stored (evictUntil mark store (front ++ target :: back))
        target ↔
      sizes (target :: back) ≤ mark := by
  induction front generalizing store with
  | nil =>
      rw [List.nil_append] at hStored hTotal ⊢
      unfold evictUntil
      split
      · rename_i hMark
        rw [hTotal] at hMark
        exact
          iff_of_true (hStored target List.mem_cons_self) hMark
      · rename_i hMark
        rw [hTotal] at hMark
        refine iff_of_false ?_ hMark
        rintro ⟨bucket', hFound, hMem⟩
        rcases shrinks_evictUntil mark back _ _ _ hFound with
          ⟨bucket, hBefore, hSub⟩
        have hLeft :
            Stored (evictCandidate store target) target :=
          ⟨bucket, hBefore, hSub.subset hMem⟩
        exact
          (stored_evictCandidate_iff.mp hLeft).2.elim
            (fun hNe => hNe rfl) (fun hNe => hNe rfl)
  | cons victim rest ih =>
      rw [List.cons_append] at hStored hApart hTotal ⊢
      unfold evictUntil
      split
      · rename_i hMark
        have hRest := sizes_nonneg rest
        rw [hTotal, sizes_cons, sizes_append] at hMark
        refine
          iff_of_true (hStored target ?_) (by omega)
        exact
          List.mem_cons_of_mem victim
            (List.mem_append_right rest List.mem_cons_self)
      · have hVictim := hStored victim List.mem_cons_self
        rcases List.pairwise_cons.mp hApart with
          ⟨hFirst, hOthers⟩
        apply ih
        · intro candidate hIn
          apply stored_evictCandidate_iff.mpr
          refine
            ⟨hStored candidate
                (List.mem_cons_of_mem victim hIn), ?_⟩
          exact
            (hFirst candidate hIn).imp
              (fun hNe => hNe.symm) (fun hNe => hNe.symm)
        · exact hOthers
        · rw [byteTotal_evictCandidate hVictim, hTotal,
            sizes_cons]
          omega

/- The global pass spares a stored candidate. -/
theorem stored_evictGlobalOldest_iff
    (caps : Caps)
    (hInv : StoreInv store)
    (hStored : Stored store target) :
    Stored (evictGlobalOldest store caps) target ↔
      store.byteTotal ≤ caps.maxTotalBytes ∨
        bytesFrom store target ≤ caps.lowWater := by
  unfold evictGlobalOldest
  split
  · rename_i hFits
    exact iff_of_true hStored (Or.inl hFits)
  · rename_i hOver
    rw [or_iff_right hOver]
    have hListed := stored_iff_candidate.mp hStored
    rcases List.append_of_mem hListed with
      ⟨front, back, hSplit⟩
    have hAhead := ahead_candidates hInv
    have hTotal := hInv.total.trans (sizes_candidates store).symm
    have hApart := apart_candidates hInv
    have hAll : ∀ candidate ∈ candidates store,
        Stored store candidate :=
      fun _ hIn => stored_iff_candidate.mpr hIn
    unfold bytesFrom
    rw [hSplit] at hAhead hTotal hApart hAll ⊢
    rw [Rank.filter_from ahead_strict hAhead]
    exact stored_evictUntil_iff hAll hApart hTotal

--------------------
-- One Push
--------------------

variable {cameraId : String}
variable {new : Segment}

theorem names_strict :
    Rank.Strict (fun a b : Segment =>
      segmentBefore a.filename b.filename) where
  irrefl := by
    intro a
    by_contra hSelf
    rw [Bool.not_eq_false] at hSelf
    exact ne_of_segmentBefore hSelf rfl
  asymm := by
    intro a b hBefore
    by_contra hBack
    rw [Bool.not_eq_false] at hBack
    exact
      ne_of_segmentBefore (segmentBefore_trans hBefore hBack)
        rfl

theorem mem_insertSegment_self
    (new : Segment)
    (bucket : Bucket) :
    new ∈ insertSegment new bucket := by
  induction bucket with
  | nil => exact List.mem_singleton_self new
  | cons old rest ih =>
      unfold insertSegment
      split
      · exact List.mem_cons_self
      · split
        · exact List.mem_cons_self
        · exact List.mem_cons_of_mem old ih

/- What comes after a name is not the name's own segment. -/
theorem countP_insertSegment
    (new : Segment)
    (bucket : Bucket) :
    (insertSegment new bucket).countP
        (fun cached =>
          segmentBefore new.filename cached.filename) =
      bucket.countP
        (fun cached =>
          segmentBefore new.filename cached.filename) := by
  have hSelf :
      segmentBefore new.filename new.filename = false :=
    names_strict.irrefl new
  induction bucket with
  | nil => simp [insertSegment, hSelf]
  | cons old rest ih =>
      unfold insertSegment
      split
      · rename_i hSame
        simp [hSame, hSelf]
      · split
        · simp [hSelf]
        · rw [List.countP_cons, List.countP_cons, ih]

theorem lookup_insertPushed :
    (insertPushed store cameraId new).cameras.lookup cameraId =
      some
        (insertSegment new
          ((store.cameras.lookup cameraId).getD [])) :=
  AList.lookup_insert _

/- The per-camera pass takes a push with too many after it. -/
theorem stored_trimmedPush_iff
    (hInv : StoreInv store)
    (cameraId : String)
    (new : Segment)
    (maxPerCamera : Nat) :
    Stored (trimmedPush store cameraId new maxPerCamera)
        { cameraId := cameraId, segment := new } ↔
      namesAfter store cameraId new.filename <
        maxPerCamera := by
  let bucket : Bucket :=
    insertSegment new ((store.cameras.lookup cameraId).getD [])
  have hFound :
      (insertPushed store cameraId new).cameras.lookup
          cameraId =
        some bucket :=
    lookup_insertPushed
  have hOrdered : Ordered bucket :=
    (storeInv_insertPushed cameraId new hInv).ordered cameraId
      bucket hFound
  have hKept :
      (trimmedPush store cameraId new maxPerCamera).cameras.lookup
          cameraId =
        some (bucket.drop (bucket.length - maxPerCamera)) := by
    unfold trimmedPush evictPerCamera
    rw [hFound]
    dsimp only
    split
    · rename_i hShort
      rw [Nat.sub_eq_zero_of_le hShort, List.drop_zero]
      exact hFound
    · exact AList.lookup_insert _
  have hRank :=
    Rank.mem_drop_iff names_strict hOrdered
      (mem_insertSegment_self new _) maxPerCamera
  rw [countP_insertSegment] at hRank
  unfold namesAfter
  rw [← hRank]
  constructor
  · rintro ⟨left, hLeft, hMem⟩
    rw [hKept] at hLeft
    rw [Option.some.inj hLeft]
    exact hMem
  · intro hMem
    exact ⟨_, hKept, hMem⟩

/- A segment that is stored is the one its name fetches. -/
theorem segment_iff_stored
    {before after : SegmentStore}
    (hInv : StoreInv after)
    (hShrinks : Shrinks (insertPushed before cameraId new) after)
    (hBefore : StoreInv before) :
    segment after cameraId new.filename = some new.body ↔
      Stored after { cameraId := cameraId, segment := new } := by
  constructor
  · intro hFetched
    rcases Option.map_eq_some_iff.mp hFetched with
      ⟨found, hFound, -⟩
    rcases Option.bind_eq_some_iff.mp hFound with
      ⟨bucket, hLookup, hFind⟩
    have hMem := List.mem_of_find?_eq_some hFind
    have hHit := List.find?_some hFind
    have hName : found.filename = new.filename :=
      eq_of_beq hHit
    rcases hShrinks cameraId bucket hLookup with
      ⟨full, hFull, hSub⟩
    have hOrdered :=
      (storeInv_insertPushed cameraId new hBefore).ordered
        cameraId full hFull
    rw [lookup_insertPushed, Option.some.injEq] at hFull
    have hNew : new ∈ full := by
      rw [← hFull]
      exact mem_insertSegment_self new _
    have hSame : found = new :=
      eq_of_filename hOrdered (hSub.subset hMem) hNew hName
    rw [hSame] at hMem
    exact ⟨bucket, hLookup, hMem⟩
  · rintro ⟨bucket, hLookup, hMem⟩
    have hOrdered := hInv.ordered cameraId bucket hLookup
    have hFind :
        bucket.find? (·.filename == new.filename) =
          some new := by
      have hSome :
          (bucket.find?
            (·.filename == new.filename)).isSome = true :=
        List.find?_isSome.mpr ⟨new, hMem, beq_self_eq_true _⟩
      rcases Option.isSome_iff_exists.mp hSome with
        ⟨found, hFind⟩
      have hHit := List.find?_some hFind
      have hName : found.filename = new.filename :=
        eq_of_beq hHit
      rw [hFind,
        eq_of_filename hOrdered
          (List.mem_of_find?_eq_some hFind) hMem hName]
    unfold segment
    rw [hLookup, Option.bind_some, hFind, Option.map_some]

--------------------
-- When a Push Is Live
--------------------

theorem stored_pushSegment_iff
    (hInv : StoreInv store)
    (cameraId filename : String)
    (body : List UInt8)
    (now : Nat)
    (caps : Caps) :
    Stored (pushSegment store cameraId filename body now caps)
        { cameraId := cameraId
          segment := ⟨filename, body, now⟩ } ↔
      namesAfter store cameraId filename <
          caps.maxPerCamera ∧
        ((trimmedPush store cameraId ⟨filename, body, now⟩
              caps.maxPerCamera).byteTotal ≤
            caps.maxTotalBytes ∨
          bytesFrom
              (trimmedPush store cameraId
                ⟨filename, body, now⟩ caps.maxPerCamera)
              { cameraId := cameraId
                segment := ⟨filename, body, now⟩ } ≤
            caps.lowWater) := by
  have hTrimmed :=
    storeInv_trimmedPush cameraId ⟨filename, body, now⟩
      caps.maxPerCamera hInv
  rw [← stored_trimmedPush_iff hInv cameraId
    ⟨filename, body, now⟩ caps.maxPerCamera]
  constructor
  · rintro ⟨left, hLeft, hMem⟩
    rcases shrinks_evictGlobalOldest _ caps _ _ hLeft with
      ⟨bucket, hFound, hSub⟩
    have hStored :
        Stored
          (trimmedPush store cameraId ⟨filename, body, now⟩
            caps.maxPerCamera)
          { cameraId := cameraId
            segment := ⟨filename, body, now⟩ } :=
      ⟨bucket, hFound, hSub.subset hMem⟩
    exact
      ⟨hStored,
        (stored_evictGlobalOldest_iff caps hTrimmed hStored).mp
          ⟨left, hLeft, hMem⟩⟩
  · rintro ⟨hStored, hSpared⟩
    exact
      (stored_evictGlobalOldest_iff caps hTrimmed hStored).mpr
        hSpared

/-
  The segment that was just pushed can be fetched exactly
  when fewer than the camera's cap come after it by number
  and the global pass, if it runs, comes down to its mark
  before it.
-/
theorem pushed_is_live_iff
    (ops : List CacheOp)
    (cameraId filename : String)
    (body : List UInt8)
    (maxPerCamera : Nat)
    (maxTotalBytes : Int)
    (now : Nat) :
    segment
        (pushSegment (storeAfter ops) cameraId filename body now
          (capsFor maxPerCamera maxTotalBytes))
        cameraId filename = some body ↔
      namesAfter (storeAfter ops) cameraId filename <
          maxPerCamera ∧
        ((trimmedPush (storeAfter ops) cameraId
              ⟨filename, body, now⟩ maxPerCamera).byteTotal ≤
            maxTotalBytes ∨
          bytesFrom
              (trimmedPush (storeAfter ops) cameraId
                ⟨filename, body, now⟩ maxPerCamera)
              { cameraId := cameraId
                segment := ⟨filename, body, now⟩ } ≤
            lowWater maxTotalBytes) := by
  let caps : Caps := capsFor maxPerCamera maxTotalBytes
  have hInv := storeInv_storeAfter ops
  have hShrinks :
      Shrinks
        (insertPushed (storeAfter ops) cameraId
          ⟨filename, body, now⟩)
        (pushSegment (storeAfter ops) cameraId filename body now
          caps) :=
    shrinks_trans (shrinks_evictPerCamera _ cameraId _)
      (shrinks_evictGlobalOldest _ caps)
  have hFetched :=
    segment_iff_stored
      (storeInv_pushSegment cameraId filename body now caps
        hInv)
      hShrinks hInv
  exact
    hFetched.trans
      (stored_pushSegment_iff hInv cameraId filename body now
        caps)

/- A restarted node numbers from zero again. -/
def beforeRestart : List CacheOp :=
  [.pushSegment "gate" "segment_00050.ts" [1] 2 1000 10,
    .pushSegment "gate" "segment_00051.ts" [2] 2 1000 11]

theorem restarted_numbers_evicted :
    ¬ ∀ (ops : List CacheOp) (cameraId : String)
        (digits : List Char) (body : List UInt8)
        (maxPerCamera : Nat) (maxTotalBytes : Int) (now : Nat),
      Numeral.IsNumeral digits → digits ≠ [] →
        1 ≤ maxPerCamera →
          20 * (body.length : Int) ≤ 19 * maxTotalBytes →
            (∀ op ∈ ops, ∀ cameraId filename body maxPerCamera
                maxTotalBytes earlier,
              op = .pushSegment cameraId filename body
                  maxPerCamera maxTotalBytes earlier →
                earlier < now) →
              segment
                  (pushSegment (storeAfter ops) cameraId
                    (numberedName digits ".ts".toList) body now
                    (capsFor maxPerCamera maxTotalBytes))
                  cameraId
                  (numberedName digits ".ts".toList) =
                some body := by
  intro hAll
  have hLive :=
    hAll beforeRestart "gate" "00000".toList [3] 2 1000 12
      (List.all_eq_true.mp (by decide)) (by decide)
      (by decide) (by decide)
      (by
        intro op hOp _ _ _ _ _ _ hPush
        subst hPush
        simp [beforeRestart] at hOp
        omega)
  exact absurd hLive (by decide)

end Hls

end SentinelCommand
