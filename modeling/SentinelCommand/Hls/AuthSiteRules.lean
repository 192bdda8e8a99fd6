import SentinelCommand.Hls.AuthSites

/-
  Whether every committed change of a cached fact is
  followed by an invalidation, wherever an operation ends.

  Main declarations:
    * `Sites.CapInterrupted`
    * `Sites.DecommissionInterrupted`
    * `Sites.change_followed_iff`
-/

--------------------
-- Commits
--------------------

namespace SentinelCommand

open Faults Hls Plans

namespace Sites

variable {s : AuthSite} {change : Db → Db}

/- No change is later than the generation. -/
def Within (s : AuthSite) : Prop :=
  ∀ generation ∈ s.changedAt, generation ≤ s.generation

theorem within_of_followed (hFollowed : Followed s) : Within s :=
  fun generation h => Nat.le_of_lt (hFollowed generation h)

theorem within_commit (hWithin : Within s) :
    Within (s.commit change) := by
  intro generation hChanged
  unfold AuthSite.commit at hChanged ⊢
  dsimp only at hChanged ⊢
  split at hChanged
  · rw [Option.mem_some_iff] at hChanged
    exact Nat.le_of_eq hChanged.symm
  · exact hWithin generation hChanged

theorem within_commits
    (changes : List (Db → Db))
    (hWithin : Within s) :
    Within
      ((changes.map AuthSite.commit).foldl
        (fun s apply => apply s) s) := by
  induction changes generalizing s with
  | nil => exact hWithin
  | cons change rest ih => exact ih (within_commit hWithin)

theorem followed_invalidate (hWithin : Within s) :
    Followed s.invalidate :=
  fun generation h =>
    Nat.lt_succ_of_le (hWithin generation h)

theorem followed_commit_invalidate (hFollowed : Followed s) :
    Followed (s.commit change).invalidate :=
  followed_invalidate (within_commit (within_of_followed hFollowed))

/- A commit that takes nothing away needs no invalidation. -/
theorem followed_commit
    (hSame : ¬ Disturbs s.rows (change s.rows))
    (hFollowed : Followed s) :
    Followed (s.commit change) := by
  unfold Followed AuthSite.commit
  dsimp only
  rw [if_neg hSame]
  exact hFollowed

/- A change made under this generation stays open. -/
theorem open_commits
    (changes : List (Db → Db))
    (hOpen : s.changedAt = some s.generation) :
    ¬ Followed
      ((changes.map AuthSite.commit).foldl
        (fun s apply => apply s) s) := by
  induction changes generalizing s with
  | nil =>
      intro hFollowed
      exact Nat.lt_irrefl _ (hFollowed s.generation hOpen)
  | cons change rest ih =>
      apply ih
      unfold AuthSite.commit
      dsimp only
      split
      · rfl
      · exact hOpen

theorem open_of_disturbs
    (s : AuthSite)
    (change : Db → Db)
    (hDisturbs : Disturbs s.rows (change s.rows)) :
    (s.commit change).changedAt =
      some (s.commit change).generation := by
  unfold AuthSite.commit
  dsimp only
  rw [if_pos hDisturbs]

theorem not_disturbs_self (db : Db) : ¬ Disturbs db db := by
  rintro (⟨node, hIn, hNot⟩ | ⟨camera, hIn, hNot⟩)
  · exact hNot hIn
  · exact hNot hIn

theorem not_disturbs_insert (row : CameraRow) (db : Db) :
    ¬ Disturbs db (insertCamera row db) := by
  unfold insertCamera
  split
  · exact not_disturbs_self db
  · rintro (⟨node, hIn, hNot⟩ | ⟨camera, hIn, hNot⟩)
    · exact hNot hIn
    · exact hNot (List.mem_append_left _ hIn)

/- A flag that flips is no longer what it was. -/
theorem disturbs_setFlag
    {db : Db}
    {orgId : String}
    {flip : String × Bool}
    {row : CameraRow}
    (hRow : row ∈ db.cameras)
    (hId : row.cameraId = flip.1)
    (hOrg : row.orgId = orgId)
    (hFlips : row.disabledByPlan ≠ flip.2) :
    Disturbs db (setFlag orgId flip db) := by
  refine Or.inr ⟨row, hRow, ?_⟩
  intro hStill
  rcases List.mem_map.mp hStill with ⟨before, hBefore, hEq⟩
  by_cases hHere : before.cameraId = flip.1 ∧ before.orgId = orgId
  · rw [if_pos hHere] at hEq
    exact hFlips (congrArg CameraRow.disabledByPlan hEq).symm
  · rw [if_neg hHere] at hEq
    subst hEq
    exact hHere ⟨hId, hOrg⟩

/- Deleting cameras takes something away when there are any. -/
theorem disturbs_keep_cameras_iff
    (db : Db)
    (keep : CameraRow → Bool) :
    Disturbs db (db.keep (fun _ => true) keep) ↔
      ∃ row ∈ db.cameras, keep row = false := by
  unfold Disturbs Db.keep
  constructor
  · rintro (⟨node, hIn, hNot⟩ | ⟨row, hIn, hNot⟩)
    · exact absurd (List.mem_filter.mpr ⟨hIn, rfl⟩) hNot
    · refine ⟨row, hIn, ?_⟩
      by_contra hKeep
      exact hNot
        (List.mem_filter.mpr
          ⟨hIn, (Bool.not_eq_false _).mp hKeep⟩)
  · rintro ⟨row, hIn, hKeep⟩
    refine Or.inr ⟨row, hIn, ?_⟩
    rw [List.mem_filter, hKeep]
    exact fun h => Bool.false_ne_true h.2

--------------------
-- Operations That Always Follow
--------------------

theorem keeps_select
    {α : Type}
    (f : Db → α) :
    Keeps Followed (select f) :=
  keeps_query _ _

theorem keeps_writeAudit : Keeps Followed writeAudit :=
  keeps_swallow (fun _ h => h)

/- A statement about columns that are not cached. -/
theorem keeps_write_other : Keeps Followed (write id) :=
  keeps_must (P := Followed)
    (fun s => followed_commit (not_disturbs_self s.rows)) _

theorem keeps_write_insert (row : CameraRow) :
    Keeps Followed (write (insertCamera row)) :=
  keeps_must (P := Followed)
    (fun s => followed_commit (not_disturbs_insert row s.rows)) _

/- A write with the invalidation right behind it. -/
theorem keeps_write_invalidate
    {α : Type}
    {change : Db → Db}
    {rest : SiteHandler α}
    (hRest : Keeps Followed rest) :
    Keeps Followed
      (write change >>= fun _ =>
        invalidateAuthCache >>= fun _ => rest) :=
  keeps_must_update (P := Followed)
    (fun _ => followed_commit_invalidate) _ hRest

theorem keeps_transact_invalidate
    {α : Type}
    {changes : List (Db → Db)}
    {rest : SiteHandler α}
    (hRest : Keeps Followed rest) :
    Keeps Followed
      (transact changes >>= fun _ =>
        invalidateAuthCache >>= fun _ => rest) :=
  keeps_transaction_update (P := Followed)
    (fun _ => followed_commit_invalidate) _ _ hRest

theorem keeps_rotateApiKey (nodeId orgId newKeyHash : String) :
    Keeps Followed (rotateApiKey nodeId orgId newKeyHash) := by
  refine keeps_bind (keeps_select _) (fun node => ?_)
  cases node with
  | none => exact keeps_refuse _
  | some node => exact keeps_write_invalidate keeps_writeAudit

theorem keeps_deleteNode (nodeId orgId : String) :
    Keeps Followed (Sites.deleteNode nodeId orgId) := by
  refine keeps_bind (keeps_select _) (fun node => ?_)
  cases node with
  | none => exact keeps_refuse _
  | some node =>
      refine keeps_bind (keeps_select _) (fun _ => ?_)
      exact keeps_transact_invalidate keeps_writeAudit

theorem keeps_selectEach (nodes : List NodeRow) :
    Keeps Followed (selectEach nodes) := by
  induction nodes with
  | nil => exact keeps_pure _
  | cons node rest ih =>
      exact keeps_bind (keeps_select _) (fun _ => ih)

theorem keeps_fullReset (orgId : String) :
    Keeps Followed (Sites.fullReset orgId) := by
  refine keeps_bind (keeps_select _) (fun nodes => ?_)
  refine keeps_bind (keeps_selectEach nodes) (fun _ => ?_)
  exact keeps_transact_invalidate keeps_writeAudit

theorem keeps_eraseOrg (orgId : String) :
    Keeps Followed (Sites.eraseOrg orgId) := by
  refine keeps_bind (keeps_select _) (fun _ => ?_)
  exact keeps_transact_invalidate (keeps_pure _)

theorem keeps_registerCameras
    (r : Registration)
    (node : NodeRow)
    (cameras : List ReportedCamera)
    (used : Nat) :
    Keeps Followed (registerCameras r node cameras used) := by
  induction cameras generalizing used with
  | nil => exact keeps_pure _
  | cons cam rest ih =>
      refine keeps_bind (keeps_select _) (fun found => ?_)
      cases found with
      | some row =>
          apply keeps_write_invalidate
          by_cases hCodec : r.hasCodec = true
          · simp only [hCodec, if_true]
            exact keeps_bind keeps_write_other (fun _ => ih used)
          · simp only [hCodec, if_false, Bool.false_eq_true]
            exact ih used
      | none =>
          by_cases hFull :
              (getPlanLimits r.plan).maxCameras ≤ used
          · simp only [hFull, if_true]
            exact ih used
          · simp only [hFull, if_false]
            exact keeps_bind (keeps_write_insert _)
              (fun _ => ih (used + 1))

theorem keeps_removeStale (cameraIds : List String) :
    Keeps Followed (removeStale cameraIds) := by
  induction cameraIds with
  | nil => exact keeps_pure _
  | cons cameraId rest ih => exact keeps_write_invalidate ih

theorem keeps_registerRows (r : Registration) :
    Keeps Followed (registerRows r) := by
  refine keeps_bind (keeps_select _) (fun found => ?_)
  cases found with
  | none => exact keeps_refuse _
  | some node =>
      by_cases hKey : node.apiKeyHash ≠ r.keyHash
      · simp only [hKey, if_true, ne_eq, not_false_eq_true]
        exact keeps_bind keeps_writeAudit
          (fun _ => keeps_refuse _)
      · simp only [hKey, if_false]
        refine keeps_bind keeps_write_other (fun _ => ?_)
        by_cases hVersion : r.versionSupported = true
        · simp only [hVersion, Bool.not_true, if_false,
            Bool.false_eq_true]
          refine keeps_bind keeps_write_other (fun _ => ?_)
          have hLoop :
              Keeps Followed
                (select (fun db =>
                    (db.cameras.filter
                      (·.orgId == node.orgId)).length) >>=
                  fun used =>
                    registerCameras r node r.cameras used >>=
                      fun _ =>
                        select (cameraIdsWhere (onNode node.pk)) >>=
                          fun onIt =>
                            removeStale
                              (onIt.filter (fun cameraId =>
                                !(r.cameras.map
                                  r.cameraId).contains
                                    cameraId)) >>=
                              fun _ => pure node.orgId) := by
            refine keeps_bind (keeps_select _) (fun used => ?_)
            refine keeps_bind
              (keeps_registerCameras r node r.cameras used)
              (fun _ => ?_)
            refine keeps_bind (keeps_select _) (fun onIt => ?_)
            exact keeps_bind (keeps_removeStale _)
              (fun _ => keeps_pure _)
          by_cases hCodec : r.hasCodec = true
          · simp only [hCodec, if_true]
            exact keeps_bind keeps_write_other (fun _ => hLoop)
          · simp only [hCodec, if_false, Bool.false_eq_true]
            exact hLoop
        · simp only [hVersion, Bool.not_false, if_true]
          exact keeps_bind keeps_writeAudit
            (fun _ => keeps_refuse _)

--------------------
-- Operations That Can Be Interrupted
--------------------

variable {o : Outcomes} {w : World AuthSite Empty}

/-
  An update of the cap that is not the first one fails, with
  all statements before it done.
-/
def CapInterrupted
    (ages : Ages)
    (plan orgId : String)
    (o : Outcomes)
    (w : World AuthSite Empty) : Prop :=
  o.propagated w.propagates = true ∧
    ∃ i,
      i < (flipsOf plan (capRows ages orgId w.db.rows)).length ∧
        0 < i ∧
        (∀ j, j < i → o.propagated (w.propagates + 1 + j) = true) ∧
        o.propagated (w.propagates + 1 + i) = false

/- The node's delete fails after that of its cameras. -/
def DecommissionInterrupted
    (keyHash : String)
    (o : Outcomes)
    (w : World AuthSite Empty) : Prop :=
  (∃ node,
    w.db.rows.cameraNodes.find? (·.apiKeyHash == keyHash) =
        some node ∧
      ∃ row ∈ w.db.rows.cameras, onNode node.pk row = true) ∧
    o.propagated w.propagates = true ∧
    o.propagated (w.propagates + 1) = true ∧
    o.propagated (w.propagates + 2) = true ∧
    o.propagated (w.propagates + 3) = false

/- Each flip is the flag of a camera of the organization. -/
theorem disturbs_of_flip
    {ages : Ages}
    {plan orgId : String}
    {db : Db}
    {flip : String × Bool}
    (hFlip : flip ∈ flipsOf plan (capRows ages orgId db)) :
    Disturbs db (setFlag orgId flip db) := by
  rcases List.mem_filterMap.mp hFlip with ⟨camera, hCamera, hIs⟩
  rcases List.mem_map.mp (mem_byAge.mp hCamera) with
    ⟨row, hRow, rfl⟩
  rw [List.mem_filter, beq_iff_eq] at hRow
  split at hIs
  · rename_i hWrong
    cases hIs
    exact disturbs_setFlag hRow.1 rfl hRow.2 hWrong
  · contradiction

theorem capWrites_eq
    (orgId : String)
    (flips : List (String × Bool)) :
    capWrites orgId flips =
      (flips.map (setFlag orgId)).map AuthSite.commit := by
  rw [List.map_map]
  rfl

/- The first update opens a change. -/
theorem open_capWrites
    (ages : Ages)
    (plan orgId : String)
    {s : AuthSite}
    {i : Nat}
    (hSome :
      i < (flipsOf plan (capRows ages orgId s.rows)).length)
    (hFirst : 0 < i) :
    ¬ Followed
      (((capWrites orgId
        (flipsOf plan (capRows ages orgId s.rows))).take i).foldl
          (fun s apply => apply s) s) := by
  rw [capWrites_eq, ← List.map_take]
  cases hFlips : flipsOf plan (capRows ages orgId s.rows) with
  | nil =>
      rw [hFlips] at hSome
      exact absurd hSome (Nat.not_lt_zero i)
  | cons flip rest =>
      have hIn :
          flip ∈ flipsOf plan (capRows ages orgId s.rows) := by
        rw [hFlips]
        exact List.mem_cons_self
      cases i with
      | zero => exact absurd hFirst (Nat.lt_irrefl 0)
      | succ i =>
          rw [List.map_cons, List.take_succ_cons, List.map_cons,
            List.foldl_cons]
          exact open_commits _
            (open_of_disturbs s (setFlag orgId flip)
              (disturbs_of_flip hIn))

/- The updates are all done, and then the invalidation. -/
theorem followed_capWrites
    {orgId : String}
    {flips : List (String × Bool)}
    {s : AuthSite}
    (hFollowed : Followed s) :
    Followed
      ((capWrites orgId flips).foldl (fun s apply => apply s)
        s).invalidate := by
  rw [capWrites_eq]
  exact followed_invalidate
    (within_commits _ (within_of_followed hFollowed))

/- The loop over the flips and what comes after it. -/
theorem updates_followed_iff
    {orgId : String}
    {flips : List (String × Bool)}
    (hFollowed : Followed w.db)
    (hOpen :
      ∀ i, i < flips.length → 0 < i →
        ¬ Followed
          (((capWrites orgId flips).take i).foldl
            (fun s apply => apply s) w.db)) :
    Followed
        ((mustAll databaseError (capWrites orgId flips) >>=
          fun _ =>
            if flips.isEmpty then pure ()
            else invalidateAuthCache >>= fun _ => pure ())
          o w).2.db ↔
      ¬ ∃ i, i < flips.length ∧ 0 < i ∧
        (∀ j, j < i → o.propagated (w.propagates + j) = true) ∧
        o.propagated (w.propagates + i) = false := by
  have hLength :
      (capWrites orgId flips).length = flips.length :=
    List.length_map _
  rcases
    mustAll_cases databaseError (capWrites orgId flips) o w with
    ⟨hAll, hRun⟩ | ⟨i, hi, hBefore, hFails, hError, hDb⟩
  · rw [bind_ok hRun]
    have hNot :
        ¬ ∃ i, i < flips.length ∧ 0 < i ∧
          (∀ j, j < i →
            o.propagated (w.propagates + j) = true) ∧
          o.propagated (w.propagates + i) = false := by
      rintro ⟨i, hi, -, -, hFails⟩
      rw [hAll i (hLength.symm ▸ hi)] at hFails
      contradiction
    refine iff_of_true ?_ hNot
    cases flips with
    | nil => exact hFollowed
    | cons flip rest => exact followed_capWrites hFollowed
  · rcases hRun :
      mustAll databaseError (capWrites orgId flips) o w with
      ⟨answer, later⟩
    rw [hRun] at hError hDb
    dsimp only at hError hDb
    subst hError
    rw [bind_error hRun, hDb]
    cases i with
    | zero =>
        refine iff_of_true hFollowed ?_
        rintro ⟨i, -, hPos, hEarlier, -⟩
        have hFirst := hEarlier 0 hPos
        rw [hFails] at hFirst
        contradiction
    | succ i =>
        refine iff_of_false
          (hOpen (i + 1) (hLength ▸ hi) (Nat.succ_pos i))
          (not_not.mpr ?_)
        exact ⟨i + 1, hLength ▸ hi, Nat.succ_pos i, hBefore,
          hFails⟩

theorem cap_followed_iff
    {ages : Ages}
    {plan orgId : String}
    (hFollowed : Followed w.db) :
    Followed (enforceCameraCap ages plan orgId o w).2.db ↔
      ¬ CapInterrupted ages plan orgId o w := by
  unfold enforceCameraCap CapInterrupted select
  cases hRead : o.propagated w.propagates with
  | false =>
      rw [bind_error (query_failed _ _ hRead)]
      exact iff_of_true hFollowed
        (fun h => Bool.false_ne_true h.1)
  | true =>
      rw [bind_ok (query_ok _ _ hRead)]
      have hUpdates :=
        updates_followed_iff (o := o)
          (w := { w with propagates := w.propagates + 1 })
          hFollowed
          (fun i => open_capWrites ages plan orgId)
      exact hUpdates.trans
        (not_congr
          ⟨fun h => ⟨rfl, h⟩, fun h => h.2⟩)

/- With the node left over, the cameras' delete stays open. -/
theorem followed_delete_iff
    {s : AuthSite}
    (pk : Int)
    (hFollowed : Followed s) :
    Followed
        (s.commit (fun db =>
          db.keep (fun _ => true) (fun row => !onNode pk row))) ↔
      ¬ ((∃ row ∈ s.rows.cameras, onNode pk row = true) ∧
        true = true ∧ true = true ∧ false = false) := by
  have hDisturbs :=
    disturbs_keep_cameras_iff s.rows
      (fun row => !onNode pk row)
  by_cases hSome : ∃ row ∈ s.rows.cameras, onNode pk row = true
  · refine iff_of_false ?_
      (not_not.mpr ⟨hSome, rfl, rfl, rfl⟩)
    rcases hSome with ⟨row, hRow, hOn⟩
    have hOpen :=
      open_of_disturbs s
        (fun db =>
          db.keep (fun _ => true) (fun row => !onNode pk row))
        (hDisturbs.mpr ⟨row, hRow, by rw [hOn]; rfl⟩)
    intro hClosed
    exact Nat.lt_irrefl _ (hClosed _ hOpen)
  · refine iff_of_true (followed_commit ?_ hFollowed)
      (fun h => hSome h.1)
    intro hLost
    rcases hDisturbs.mp hLost with ⟨row, hRow, hOn⟩
    exact hSome ⟨row, hRow, by simpa using hOn⟩

/- The operation from the second query on. -/
theorem decommission_node_iff
    {w : World AuthSite Empty}
    (node : NodeRow)
    (hFollowed : Followed w.db) :
    Followed
        ((select (cameraIdsWhere (onNode node.pk)) >>= fun _ =>
          write (fun db =>
              db.keep (fun _ => true)
                (fun row => !onNode node.pk row)) >>= fun _ =>
            write (fun db =>
                db.keep (·.pk ≠ node.pk) (fun _ => true)) >>=
              fun _ =>
                invalidateAuthCache >>= fun _ => writeAudit)
          o w).2.db ↔
      ¬ ((∃ row ∈ w.db.rows.cameras,
          onNode node.pk row = true) ∧
        o.propagated w.propagates = true ∧
        o.propagated (w.propagates + 1) = true ∧
        o.propagated (w.propagates + 2) = false) := by
  unfold select write
  cases hRead : o.propagated w.propagates with
  | false =>
      rw [bind_error (query_failed _ _ hRead)]
      exact iff_of_true hFollowed
        (fun h => Bool.false_ne_true h.2.1)
  | true =>
      rw [bind_ok (query_ok _ _ hRead)]
      cases hCameras : o.propagated (w.propagates + 1) with
      | false =>
          rw [bind_error (must_failed _ _ hCameras)]
          exact iff_of_true hFollowed
            (fun h => Bool.false_ne_true h.2.2.1)
      | true =>
          rw [bind_ok (must_ok _ _ hCameras)]
          cases hLast : o.propagated (w.propagates + 2) with
          | false =>
              rw [bind_error (must_failed _ _ hLast)]
              exact followed_delete_iff node.pk hFollowed
          | true =>
              rw [bind_ok (must_ok _ _ hLast)]
              refine iff_of_true ?_
                (fun h => Bool.noConfusion h.2.2.2)
              exact keeps_writeAudit o _
                (followed_invalidate
                  (within_commit (within_commit
                    (within_of_followed hFollowed))))

theorem decommission_followed_iff
    {keyHash : String}
    (hFollowed : Followed w.db) :
    Followed (decommissionSelf keyHash o w).2.db ↔
      ¬ DecommissionInterrupted keyHash o w := by
  unfold decommissionSelf DecommissionInterrupted select
  cases hFirst : o.propagated w.propagates with
  | false =>
      rw [bind_error (query_failed _ _ hFirst)]
      exact iff_of_true hFollowed
        (fun h => Bool.false_ne_true h.2.1)
  | true =>
      rw [bind_ok (query_ok _ _ hFirst)]
      cases hNode :
        w.db.rows.cameraNodes.find?
          (·.apiKeyHash == keyHash) with
      | none =>
          simp only [hNode]
          refine iff_of_true hFollowed ?_
          rintro ⟨⟨node, hSome, -⟩, -⟩
          contradiction
      | some node =>
          simp only [hNode]
          have hRest :=
            decommission_node_iff (o := o)
              (w := { w with propagates := w.propagates + 1 })
              node hFollowed
          refine hRest.trans (not_congr ?_)
          constructor
          · rintro ⟨hCamera, hOk⟩
            exact ⟨⟨node, rfl, hCamera⟩, trivial, hOk⟩
          · rintro ⟨⟨found, hFound, hCamera⟩, -, hOk⟩
            cases hFound
            exact ⟨hCamera, hOk⟩

--------------------
-- Every Operation
--------------------

/-
  An operation ends with a change left open: in the loop of
  the cap, also at the end of a registration, or between the
  two deletes of a decommission.
-/
def LeftOpen
    (ages : Ages)
    (op : SiteOp)
    (o : Outcomes)
    (w : World AuthSite Empty) : Prop :=
  match op with
  | .decommission keyHash => DecommissionInterrupted keyHash o w
  | .enforceCap plan orgId => CapInterrupted ages plan orgId o w
  | .register r =>
      ∃ orgId registered,
        registerRows r o w = (.ok orgId, registered) ∧
          CapInterrupted ages r.effectivePlan orgId o registered
  | _ => False

theorem register_followed_iff
    {ages : Ages}
    {r : Registration}
    {o : Outcomes}
    {w : World AuthSite Empty}
    (hFollowed : Followed w.db) :
    Followed (registerNode ages r o w).2.db ↔
      ¬ ∃ orgId registered,
        registerRows r o w = (.ok orgId, registered) ∧
          CapInterrupted ages r.effectivePlan orgId o
            registered := by
  have hRegistered := keeps_registerRows r o w hFollowed
  unfold registerNode
  rcases hRun : registerRows r o w with ⟨answer, registered⟩
  rw [hRun] at hRegistered
  cases answer with
  | error message =>
      rw [bind_error hRun]
      refine iff_of_true hRegistered ?_
      rintro ⟨orgId, other, hOk, -⟩
      cases hOk
  | ok orgId =>
      rw [bind_ok hRun]
      refine (cap_followed_iff hRegistered).trans (not_congr ?_)
      constructor
      · exact fun h => ⟨orgId, registered, rfl, h⟩
      · rintro ⟨other, later, hOk, hCap⟩
        cases hOk
        exact hCap

/-
  Wherever its statements fail, an operation's last change
  is followed by an invalidation, but for an update of the
  cap that fails after another one, and for a node whose
  delete fails after that of its cameras.
-/
theorem change_followed_iff
    (ages : Ages)
    (op : SiteOp)
    (rows : Db)
    (generation : Nat)
    (o : Outcomes) :
    Followed
        (op.handler ages o
          (World.start
            { rows := rows
              generation := generation
              changedAt := none })).2.db ↔
      ¬ LeftOpen ages op o
        (World.start
          { rows := rows
            generation := generation
            changedAt := none }) := by
  have hStart :
      Followed
        (World.start
          { rows := rows
            generation := generation
            changedAt := none } : World AuthSite Empty).db :=
    fun _ h => absurd h (Option.not_mem_none _)
  cases op with
  | rotateKey nodeId orgId newKeyHash =>
      exact iff_of_true
        (keeps_rotateApiKey nodeId orgId newKeyHash o _ hStart)
        id
  | deleteNode nodeId orgId =>
      exact iff_of_true (keeps_deleteNode nodeId orgId o _ hStart)
        id
  | decommission keyHash =>
      exact decommission_followed_iff hStart
  | fullReset orgId =>
      exact iff_of_true (keeps_fullReset orgId o _ hStart) id
  | eraseOrg orgId =>
      exact iff_of_true (keeps_eraseOrg orgId o _ hStart) id
  | register r => exact register_followed_iff hStart
  | enforceCap plan orgId => exact cap_followed_iff hStart

def cameraIds : List String :=
  ["a", "b", "c", "d", "e", "f", "g"]

def inTurn : Ages :=
  fun cameraId => (some 0, cameraIds.idxOf cameraId)

/- Seven enabled cameras, of which the free plan keeps five. -/
def sevenCameras : Db where
  cameraNodes := []
  cameras :=
    cameraIds.map (fun cameraId =>
      { cameraId := cameraId
        nodePk := none
        orgId := "org"
        name := cameraId
        disabledByPlan := false })
  unique := by decide

/- All succeed but the second of the two updates. -/
def secondUpdateFails : Outcomes where
  swallowed := fun _ => true
  propagated := fun i => i ≠ 2

theorem change_left_open :
    ¬ Followed
      ((SiteOp.enforceCap "free_org" "org").handler inTurn
        secondUpdateFails
        (World.start
          { rows := sevenCameras
            generation := 0
            changedAt := none })).2.db := by
  decide

end Sites

end SentinelCommand
