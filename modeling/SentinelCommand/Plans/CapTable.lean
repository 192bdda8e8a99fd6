import SentinelCommand.Plans.CameraCap
import SentinelCommand.Text

/-
  One call of `enforce_camera_cap` that runs alone, on the
  whole table of cameras.

  The flags it computes from what it read are written one
  UPDATE at a time, by camera id within the organization.

  Main declarations:
    * `Plans.enforceCameraCapAlone`
    * `Plans.CapEnforced`
    * `Plans.camera_cap_enforced`
-/

--------------------
-- The Table
--------------------

namespace SentinelCommand

namespace Plans

variable {R : Type}

/- A row of `cameras`; `rest` is what no part of this reads. -/
structure TableCamera (R : Type) extends CapCamera where
  orgId : String
  updatedAt : Option Int
  rest : R
  deriving DecidableEq, Repr

/- The organization's cameras, the oldest first. -/
def ownCameras
    (table : List (TableCamera R))
    (orgId : String) : List CapCamera :=
  byAge
    ((table.filter (·.orgId = orgId)).map
      TableCamera.toCapCamera)

/- `UPDATE cameras` by camera id and organization. -/
def writeFlag
    (orgId : String)
    (flip : String × Bool)
    (now : Int)
    (row : TableCamera R) : TableCamera R :=
  if row.orgId = orgId ∧ row.cameraId = flip.1 then
    { row with
      disabledByPlan := some flip.2
      updatedAt := some now }
  else
    row

/- One UPDATE after the other, each with its own clock. -/
def writeFlags
    (orgId : String)
    (clock : Nat → Int) :
    Nat → List (String × Bool) → List (TableCamera R) →
      List (TableCamera R)
| _, [], table => table
| n, flip :: rest, table =>
    writeFlags orgId clock (n + 1) rest
      (table.map (writeFlag orgId flip (clock n)))

/- The label of a plan; `lower` is `str::to_lowercase`. -/
def wirePlanSlug
    (lower : List Char → List Char)
    (plan : String) : String :=
  let label := lower (Text.trim plan.toList)
  if label = [] then
    "free"
  else if "_org".toList <:+ label then
    String.ofList (label.take (label.length - 4))
  else
    String.ofList label

@[ext]
structure CapOutcome where
  plan : String
  maxCameras : Nat
  enabled : List String
  disabled : List String
  changed : Bool
  deriving DecidableEq, Repr

def enforceCameraCapAlone
    (lower : List Char → List Char)
    (plan orgId : String)
    (clock : Nat → Int)
    (table : List (TableCamera R)) :
    List (TableCamera R) × CapOutcome :=
  let cameras := ownCameras table orgId
  let flips := flipsOf plan cameras
  (writeFlags orgId clock 0 flips table,
    { plan := wirePlanSlug lower plan
      maxCameras := capOf plan
      enabled :=
        (cameras.filter
          (fun camera =>
            !shouldDisable plan cameras camera.cameraId)).map
          CapCamera.cameraId
      disabled :=
        (cameras.drop (capOf plan)).map CapCamera.cameraId
      changed := !flips.isEmpty })

/- The columns that a call leaves alone. -/
def TableCamera.frame (row : TableCamera R) : TableCamera R :=
  { row with disabledByPlan := none, updatedAt := none }

/-
  The first cameras up to the cap have their flag unset and
  the others have it set; no other column and no row of
  another organization has changed, and the outcome lists
  the two parts.
-/
structure CapEnforced
    (plan orgId : String)
    (table : List (TableCamera R))
    (result : List (TableCamera R) × CapOutcome) : Prop where
  ids :
    (ownCameras result.1 orgId).map CapCamera.cameraId =
      (ownCameras table orgId).map CapCamera.cameraId
  flags :
    (ownCameras result.1 orgId).map CapCamera.disabled =
      List.replicate
          (min (capOf plan) (ownCameras table orgId).length)
          false ++
        List.replicate
          ((ownCameras table orgId).length - capOf plan) true
  notNull :
    (∀ row ∈ table, row.disabledByPlan ≠ none) →
      ∀ row ∈ result.1, row.disabledByPlan ≠ none
  columns :
    result.1.map TableCamera.frame =
      table.map TableCamera.frame
  others :
    result.1.filter (·.orgId ≠ orgId) =
      table.filter (·.orgId ≠ orgId)
  enabled :
    result.2.enabled =
      ((ownCameras table orgId).take (capOf plan)).map
        CapCamera.cameraId
  disabled :
    result.2.disabled =
      ((ownCameras table orgId).drop (capOf plan)).map
        CapCamera.cameraId
  changed :
    result.2.changed = true ↔
      (ownCameras result.1 orgId).map CapCamera.disabled ≠
        (ownCameras table orgId).map CapCamera.disabled

--------------------
-- The Writes
--------------------

variable {orgId : String}
variable {clock : Nat → Int}
variable {flips : List (String × Bool)}

/- The flags written to one row. -/
def setAll
    (flips : List (String × Bool))
    (camera : CapCamera) : CapCamera :=
  flips.foldl (fun camera flip => setDisabled flip camera)
    camera

theorem toCapCamera_writeFlag
    (flip : String × Bool)
    (now : Int)
    {row : TableCamera R}
    (hOrg : row.orgId = orgId) :
    (writeFlag orgId flip now row).toCapCamera =
      setDisabled flip row.toCapCamera := by
  unfold writeFlag setDisabled
  by_cases hId : row.cameraId = flip.1
  · rw [if_pos ⟨hOrg, hId⟩, if_pos hId]
  · rw [if_neg (fun hBoth => hId hBoth.2), if_neg hId]

theorem orgId_writeFlag
    (flip : String × Bool)
    (now : Int)
    (row : TableCamera R) :
    (writeFlag orgId flip now row).orgId = row.orgId := by
  unfold writeFlag
  split
  · rfl
  · rfl

theorem frame_writeFlag
    (flip : String × Bool)
    (now : Int)
    (row : TableCamera R) :
    (writeFlag orgId flip now row).frame = row.frame := by
  unfold writeFlag
  split
  · rfl
  · rfl

theorem ownCameras_writeFlag
    (flip : String × Bool)
    (now : Int)
    (table : List (TableCamera R)) :
    ownCameras (table.map (writeFlag orgId flip now)) orgId =
      (ownCameras table orgId).map (setDisabled flip) := by
  unfold ownCameras
  rw [← byAge_setDisabled, List.filter_map, List.map_map,
    List.map_map]
  have hOrg :
      ((fun row : TableCamera R => decide (row.orgId = orgId)) ∘
          writeFlag orgId flip now) =
        fun row => decide (row.orgId = orgId) := by
    funext row
    rw [Function.comp_apply, orgId_writeFlag]
  rw [hOrg]
  congr 1
  apply List.map_congr_left
  intro row hRow
  exact
    toCapCamera_writeFlag flip now
      (of_decide_eq_true (List.mem_filter.mp hRow).2)

/- The organization's cameras after all of the UPDATEs. -/
theorem ownCameras_writeFlags
    (n : Nat)
    (table : List (TableCamera R)) :
    ownCameras (writeFlags orgId clock n flips table) orgId =
      (ownCameras table orgId).map (setAll flips) := by
  induction flips generalizing n table with
  | nil => exact (List.map_id _).symm
  | cons flip rest ih =>
      unfold writeFlags
      rw [ih, ownCameras_writeFlag, List.map_map]
      rfl

theorem frame_writeFlags
    (n : Nat)
    (table : List (TableCamera R)) :
    (writeFlags orgId clock n flips table).map
        TableCamera.frame =
      table.map TableCamera.frame := by
  induction flips generalizing n table with
  | nil => rfl
  | cons flip rest ih =>
      unfold writeFlags
      rw [ih, List.map_map]
      apply List.map_congr_left
      intro row _
      exact frame_writeFlag flip (clock n) row

theorem others_writeFlags
    (n : Nat)
    (table : List (TableCamera R)) :
    (writeFlags orgId clock n flips table).filter
        (·.orgId ≠ orgId) =
      table.filter (·.orgId ≠ orgId) := by
  induction flips generalizing n table with
  | nil => rfl
  | cons flip rest ih =>
      unfold writeFlags
      rw [ih, List.filter_map]
      have hOrg :
          ((fun row : TableCamera R =>
              decide (row.orgId ≠ orgId)) ∘
              writeFlag orgId flip (clock n)) =
            fun row => decide (row.orgId ≠ orgId) := by
        funext row
        rw [Function.comp_apply, orgId_writeFlag]
      rw [hOrg]
      refine (List.map_congr_left ?_).trans (List.map_id _)
      intro row hRow
      have hOther :=
        of_decide_eq_true (List.mem_filter.mp hRow).2
      exact if_neg (fun hBoth => hOther hBoth.1)

theorem notNull_writeFlags
    (n : Nat)
    {table : List (TableCamera R)}
    (hNotNull : ∀ row ∈ table, row.disabledByPlan ≠ none) :
    ∀ row ∈ writeFlags orgId clock n flips table,
      row.disabledByPlan ≠ none := by
  induction flips generalizing n table with
  | nil => exact hNotNull
  | cons flip rest ih =>
      apply ih
      intro row hRow
      rcases List.mem_map.mp hRow with ⟨old, hOld, rfl⟩
      unfold writeFlag
      split
      · exact nofun
      · exact hNotNull old hOld

theorem cameraId_setAll (camera : CapCamera) :
    (setAll flips camera).cameraId = camera.cameraId := by
  induction flips generalizing camera with
  | nil => rfl
  | cons flip rest ih =>
      exact (ih _).trans (setDisabled_keys flip camera).1

/- A camera that is written at all is written one value. -/
theorem disabled_setAll
    {camera : CapCamera}
    {wanted : Bool}
    (hOnly :
      ∀ flip ∈ flips, flip.1 = camera.cameraId →
        flip.2 = wanted)
    (hSet :
      camera.disabled = wanted ∨
        ∃ flip ∈ flips, flip.1 = camera.cameraId) :
    (setAll flips camera).disabled = wanted := by
  induction flips generalizing camera with
  | nil =>
      rcases hSet with hAlready | ⟨_, hIn, -⟩
      · exact hAlready
      · cases hIn
  | cons flip rest ih =>
      have hKeys := (setDisabled_keys flip camera).1
      apply ih
      · intro other hOther hId
        rw [hKeys] at hId
        exact hOnly other (List.mem_cons_of_mem flip hOther) hId
      · rw [disabled_setDisabled, hKeys]
        by_cases hId : camera.cameraId = flip.1
        · rw [if_pos hId]
          exact
            Or.inl
              (hOnly flip List.mem_cons_self hId.symm)
        · rw [if_neg hId]
          rcases hSet with hAlready | ⟨other, hIn, hOther⟩
          · exact Or.inl hAlready
          · rcases List.mem_cons.mp hIn with rfl | hRest
            · exact absurd hOther.symm hId
            · exact Or.inr ⟨other, hRest, hOther⟩

--------------------
-- The Flags
--------------------

variable {plan orgId : String}
variable {cameras : List CapCamera}

/- A camera's flag is what the call wanted it to be. -/
theorem disabled_afterFlips
    {camera : CapCamera}
    (hCamera : camera ∈ cameras) :
    (setAll (flipsOf plan cameras) camera).disabled =
      shouldDisable plan cameras camera.cameraId := by
  apply disabled_setAll
  · intro flip hFlip hId
    rcases List.mem_filterMap.mp hFlip with ⟨other, -, hOther⟩
    split at hOther
    · rw [← Option.some.inj hOther] at hId ⊢
      exact congrArg (shouldDisable plan cameras) hId
    · cases hOther
  · by_cases hRight :
        camera.disabled =
          shouldDisable plan cameras camera.cameraId
    · exact Or.inl hRight
    · let flip : String × Bool :=
        (camera.cameraId,
          shouldDisable plan cameras camera.cameraId)
      have hFlip : flip ∈ flipsOf plan cameras :=
        List.mem_filterMap.mpr
          ⟨camera, hCamera, if_pos hRight⟩
      exact Or.inr ⟨flip, hFlip, rfl⟩

/- What is kept goes by the ids, which no flag changes. -/
theorem shouldDisable_setAll
    (flips : List (String × Bool))
    (cameraId : String) :
    shouldDisable plan (cameras.map (setAll flips)) cameraId =
      shouldDisable plan cameras cameraId := by
  have hIds :
      keepIds plan (cameras.map (setAll flips)) =
        keepIds plan cameras := by
    unfold keepIds
    rw [← List.map_take, List.map_map]
    apply List.map_congr_left
    intro camera _
    exact cameraId_setAll camera
  unfold shouldDisable
  rw [hIds]

theorem filter_enabled
    (hNodup : (cameras.map CapCamera.cameraId).Nodup) :
    cameras.filter
        (fun camera =>
          !shouldDisable plan cameras camera.cameraId) =
      cameras.take (capOf plan) := by
  rw [← filter_kept hNodup (capOf plan)]
  apply List.filter_congr
  intro camera _
  exact Bool.not_not _

/- The first are kept, and the others are not. -/
theorem map_shouldDisable
    (hNodup : (cameras.map CapCamera.cameraId).Nodup) :
    cameras.map
        (fun camera =>
          shouldDisable plan cameras camera.cameraId) =
      List.replicate (min (capOf plan) cameras.length) false ++
        List.replicate (cameras.length - capOf plan) true := by
  have hFirst :
      (cameras.take (capOf plan)).map
          (fun camera =>
            shouldDisable plan cameras camera.cameraId) =
        List.replicate (min (capOf plan) cameras.length)
          false := by
    rw [List.eq_replicate_iff, List.length_map,
      List.length_take]
    refine ⟨rfl, ?_⟩
    intro flag hFlag
    rcases List.mem_map.mp hFlag with ⟨camera, hIn, rfl⟩
    unfold shouldDisable
    rw [Bool.not_eq_false', List.contains_iff_mem]
    exact List.mem_map_of_mem hIn
  have hRest :
      (cameras.drop (capOf plan)).map
          (fun camera =>
            shouldDisable plan cameras camera.cameraId) =
        List.replicate (cameras.length - capOf plan) true := by
    rw [List.eq_replicate_iff, List.length_map,
      List.length_drop]
    refine ⟨rfl, ?_⟩
    intro flag hFlag
    rcases List.mem_map.mp hFlag with ⟨camera, hIn, rfl⟩
    unfold shouldDisable
    rw [Bool.not_eq_true', ← Bool.not_eq_true,
      List.contains_iff_mem]
    intro hKept
    rw [← List.take_append_drop (capOf plan) cameras,
      List.map_append] at hNodup
    exact
      List.disjoint_of_nodup_append hNodup hKept
        (List.mem_map_of_mem hIn)
  calc cameras.map
        (fun camera =>
          shouldDisable plan cameras camera.cameraId)
      = (cameras.take (capOf plan) ++
            cameras.drop (capOf plan)).map
          (fun camera =>
            shouldDisable plan cameras camera.cameraId) := by
        rw [List.take_append_drop]
    _ = _ := by rw [List.map_append, hFirst, hRest]

/- After a call there is nothing to flip. -/
theorem flipsOf_afterFlips :
    flipsOf plan
        (cameras.map (setAll (flipsOf plan cameras))) =
      [] := by
  unfold flipsOf
  rw [List.filterMap_eq_nil_iff]
  intro camera hCamera
  apply if_neg
  rw [not_not]
  rcases List.mem_map.mp hCamera with ⟨old, hOld, rfl⟩
  calc (setAll (flipsOf plan cameras) old).disabled
      = shouldDisable plan cameras old.cameraId :=
        disabled_afterFlips hOld
    _ = _ := by
        rw [shouldDisable_setAll, cameraId_setAll]

/- A call that flips something is one that finds it wrong. -/
theorem flipsOf_ne_nil_iff :
    flipsOf plan cameras ≠ [] ↔
      (cameras.map (setAll (flipsOf plan cameras))).map
          CapCamera.disabled ≠
        cameras.map CapCamera.disabled := by
  rw [List.map_map]
  apply not_congr
  constructor
  · intro hNone
    rw [hNone]
    rfl
  · intro hSame
    unfold flipsOf
    rw [List.filterMap_eq_nil_iff]
    intro camera hCamera
    apply if_neg
    rw [not_not, ← disabled_afterFlips hCamera]
    exact (List.map_inj_left.mp hSame camera hCamera).symm

theorem nodup_ownCameras
    {table : List (TableCamera R)}
    (hDistinct : (table.map (·.cameraId)).Nodup)
    (orgId : String) :
    ((ownCameras table orgId).map
      CapCamera.cameraId).Nodup := by
  have hOwn :
      ((table.filter (·.orgId = orgId)).map
        (·.cameraId)).Nodup :=
    hDistinct.sublist (List.filter_sublist.map _)
  unfold ownCameras byAge
  rw [((List.perm_insertionSort _ _).map _).nodup_iff,
    List.map_map]
  exact hOwn

--------------------
-- One Call
--------------------

variable {lower : List Char → List Char}
variable {table : List (TableCamera R)}

theorem ownCameras_enforce :
    ownCameras
        (enforceCameraCapAlone lower plan orgId clock table).1
        orgId =
      (ownCameras table orgId).map
        (setAll (flipsOf plan (ownCameras table orgId))) :=
  ownCameras_writeFlags 0 table

theorem capEnforced
    (hDistinct : (table.map (·.cameraId)).Nodup) :
    CapEnforced plan orgId table
      (enforceCameraCapAlone lower plan orgId clock table) where
  ids := by
    rw [ownCameras_enforce, List.map_map]
    apply List.map_congr_left
    intro camera _
    exact cameraId_setAll camera
  flags := by
    rw [ownCameras_enforce, List.map_map,
      ← map_shouldDisable (nodup_ownCameras hDistinct orgId)]
    apply List.map_congr_left
    intro camera hCamera
    exact disabled_afterFlips hCamera
  notNull := notNull_writeFlags 0
  columns := frame_writeFlags 0 table
  others := others_writeFlags 0 table
  enabled :=
    congrArg (List.map CapCamera.cameraId)
      (filter_enabled (nodup_ownCameras hDistinct orgId))
  disabled := rfl
  changed := by
    rw [ownCameras_enforce, ← flipsOf_ne_nil_iff]
    change (!(flipsOf plan _).isEmpty) = true ↔ _
    rw [Bool.not_eq_true', List.isEmpty_eq_false_iff]

/- The ids stay distinct, as no call writes them. -/
theorem distinct_enforce
    (hDistinct : (table.map (·.cameraId)).Nodup) :
    ((enforceCameraCapAlone lower plan orgId clock table).1.map
      (·.cameraId)).Nodup := by
  have hIds (rows : List (TableCamera R)) :
      rows.map (·.cameraId) =
        (rows.map TableCamera.frame).map (·.cameraId) := by
    rw [List.map_map]
    rfl
  rw [hIds, (capEnforced hDistinct).columns, ← hIds]
  exact hDistinct

/- A second call finds the flags as it wants them. -/
theorem enforce_again
    (hDistinct : (table.map (·.cameraId)).Nodup)
    (later : Nat → Int) :
    let first := enforceCameraCapAlone lower plan orgId clock table
    enforceCameraCapAlone lower plan orgId later first.1 =
      (first.1, { first.2 with changed := false }) := by
  intro first
  have hFirst : CapEnforced plan orgId table first :=
    capEnforced hDistinct
  have hAgain :
      CapEnforced plan orgId first.1
        (enforceCameraCapAlone lower plan orgId later first.1) :=
    capEnforced (distinct_enforce hDistinct)
  have hNone :
      flipsOf plan (ownCameras first.1 orgId) = [] := by
    rw [ownCameras_enforce]
    exact flipsOf_afterFlips
  have hRows :
      (enforceCameraCapAlone lower plan orgId later first.1).1 =
        first.1 := by
    change
      writeFlags orgId later 0
          (flipsOf plan (ownCameras first.1 orgId)) first.1 =
        first.1
    rw [hNone]
    rfl
  have hEnabled := hAgain.enabled
  have hDisabled := hAgain.disabled
  rw [List.map_take, hFirst.ids, ← List.map_take,
    ← hFirst.enabled] at hEnabled
  rw [List.map_drop, hFirst.ids, ← List.map_drop,
    ← hFirst.disabled] at hDisabled
  have hChanged :
      (enforceCameraCapAlone lower plan orgId later
        first.1).2.changed = false := by
    change (!(flipsOf plan _).isEmpty) = false
    rw [hNone]
    rfl
  exact
    Prod.ext hRows
      (CapOutcome.ext rfl rfl hEnabled hDisabled hChanged)

/-
  Under another plan and then under the first one again, the
  flags are what they were.
-/
theorem enforce_restores
    (hDistinct : (table.map (·.cameraId)).Nodup)
    (lowered : String)
    (during after : Nat → Int) :
    let first := enforceCameraCapAlone lower plan orgId clock table
    let second :=
      enforceCameraCapAlone lower lowered orgId during first.1
    let third :=
      enforceCameraCapAlone lower plan orgId after second.1
    (ownCameras third.1 orgId).map
        (fun camera => (camera.cameraId, camera.disabled)) =
      (ownCameras first.1 orgId).map
        (fun camera => (camera.cameraId, camera.disabled)) := by
  intro first second third
  have hFirst : CapEnforced plan orgId table first :=
    capEnforced hDistinct
  have hDistinctFirst : (first.1.map (·.cameraId)).Nodup :=
    distinct_enforce hDistinct
  have hSecond : CapEnforced lowered orgId first.1 second :=
    capEnforced hDistinctFirst
  have hThird : CapEnforced plan orgId second.1 third :=
    capEnforced (distinct_enforce hDistinctFirst)
  have hIds :
      (ownCameras second.1 orgId).map CapCamera.cameraId =
        (ownCameras table orgId).map CapCamera.cameraId :=
    hSecond.ids.trans hFirst.ids
  have hLength :
      (ownCameras second.1 orgId).length =
        (ownCameras table orgId).length := by
    simpa using congrArg List.length hIds
  rw [← List.zip_map', ← List.zip_map', hThird.ids,
    hThird.flags, hIds, hLength, hFirst.ids, hFirst.flags]

/-
  One call alone keeps the oldest cameras up to the cap and
  flags the others, a second call changes nothing, and a cap
  that is lowered and raised back gives the flags back.
-/
theorem camera_cap_enforced
    (lower : List Char → List Char)
    (plan lowered orgId : String)
    (clock later during after : Nat → Int)
    (table : List (TableCamera R))
    (hDistinct : (table.map (·.cameraId)).Nodup) :
    let first := enforceCameraCapAlone lower plan orgId clock table
    let second :=
      enforceCameraCapAlone lower lowered orgId during first.1
    let third :=
      enforceCameraCapAlone lower plan orgId after second.1
    CapEnforced plan orgId table first ∧
      enforceCameraCapAlone lower plan orgId later first.1 =
        (first.1, { first.2 with changed := false }) ∧
      (ownCameras third.1 orgId).map
          (fun camera => (camera.cameraId, camera.disabled)) =
        (ownCameras first.1 orgId).map
          (fun camera => (camera.cameraId, camera.disabled)) :=
  ⟨capEnforced hDistinct, enforce_again hDistinct later,
    enforce_restores hDistinct lowered during after⟩

/- Six cameras of one organization and one of another. -/
def sevenCameras : List (TableCamera Unit) :=
  ["a", "b", "c", "d", "e", "f", "g"].mapIdx
    (fun i cameraId =>
      { id := i
        cameraId := cameraId
        createdAt := if i = 0 then none else some 5
        disabledByPlan := some (i = 3)
        orgId := if i = 6 then "other" else "org"
        updatedAt := none
        rest := () })

/- Of equal times the lower id comes first, nulls last. -/
theorem camera_cap_enforced_seven :
    (enforceCameraCapAlone id "free_org" "org" (fun _ => 9)
        sevenCameras).2 =
      { plan := "free"
        maxCameras := 5
        enabled := ["b", "c", "d", "e", "f"]
        disabled := ["a"]
        changed := true } ∧
    (enforceCameraCapAlone id "free_org" "org" (fun _ => 10)
        (enforceCameraCapAlone id "free_org" "org" (fun _ => 9)
          sevenCameras).1).2.changed = false := by
  have hEnforced :=
    camera_cap_enforced id "free_org" "pro" "org" (fun _ => 9)
      (fun _ => 10) (fun _ => 11) (fun _ => 12) sevenCameras
      (by decide)
  refine ⟨by decide, ?_⟩
  rw [hEnforced.2.1]

end Plans

end SentinelCommand
