import SentinelCommand.Nodes.Register

/-
  The room that a registration finds and the room it leaves.

  Cameras are counted before the first report, and the ones
  that the node no longer reports are removed after the last.
  On what a row is known by, a registration appends the new
  cameras that fit and removes the stale ones.

  Main declarations:
    * `Nodes.Place`
    * `Nodes.room_used_iff`
    * `Nodes.renamed_cameras_skipped`
-/

--------------------
-- Places
--------------------

namespace SentinelCommand

namespace Nodes

open Plans

/- What a row is known by; no update writes it. -/
structure Place where
  id : Int
  cameraId : String
  orgId : String
  nodeRef : Option Int
  deriving DecidableEq, Repr

def placeOf (row : Row) : Place where
  id := row.id
  cameraId := row.cameraId
  orgId := row.orgId
  nodeRef := row.rest.nodeRef

def places (rows : List Row) : List Place :=
  rows.map placeOf

/- The places of new cameras, from the next id on. -/
def newPlaces (reg : Registration) :
    Int → List String → List Place
| _, [] => []
| nextId, cameraId :: rest =>
    { id := nextId
      cameraId := cameraId
      orgId := reg.orgId
      nodeRef := some reg.nodeRef } ::
      newPlaces reg (nextId + 1) rest

def reportIds
    (reg : Registration)
    (reports : List CameraReport) : List String :=
  reports.map (fun report => cameraIdFor reg.nodeId report.path)

/- The reported ids that no row has. -/
def newIds
    (reg : Registration)
    (rows : List Row)
    (reports : List CameraReport) : List String :=
  (reportIds reg reports).filter
    (· ∉ rows.map (·.cameraId))

/- The room before anything is removed. -/
def roomLeft
    (reg : Registration)
    (rows : List Row) : Nat :=
  reg.maxCameras - orgCount rows reg.orgId

/- The organization's rows that the node does not report. -/
def staleCount
    (reg : Registration)
    (rows : List Row)
    (reports : List CameraReport) : Nat :=
  rows.countP
    (fun row =>
      decide (row.orgId = reg.orgId) &&
        isStale reg (reportIds reg reports) row)

/- A camera is skipped only when the organization is full. -/
def UsesRoom (reg : Registration) (after : Pass) : Prop :=
  after.skipped ≠ [] →
    reg.maxCameras ≤ orgCount after.rows reg.orgId

--------------------
-- One Report
--------------------

variable {reg : Registration}
variable {current : Nat}

theorem places_refreshed
    (rows : List Row)
    (report : CameraReport)
    (existing : Int) :
    places
        (rows.map
          (fun row =>
            if row.id = existing then
              refreshed reg report row
            else
              row)) =
      places rows := by
  unfold places
  rw [List.map_map]
  apply List.map_congr_left
  intro row _
  rw [Function.comp_apply]
  split <;> rfl

theorem cameraIds_eq (rows : List Row) :
    rows.map (·.cameraId) =
      (places rows).map Place.cameraId := by
  unfold places
  rw [List.map_map]
  rfl

theorem places_concat (rows : List Row) (row : Row) :
    places (rows ++ [row]) = places rows ++ [placeOf row] :=
  List.map_append

/- What a report does to a table that has its camera. -/
theorem registerCamera_known
    (current : Nat)
    {s : Pass}
    {report : CameraReport}
    (hKnown :
      cameraIdFor reg.nodeId report.path ∈
        s.rows.map (·.cameraId)) :
    places (registerCamera reg current s report).rows =
        places s.rows ∧
      (registerCamera reg current s report).newCameras =
        s.newCameras ∧
      (registerCamera reg current s report).nextId =
        s.nextId ∧
      (registerCamera reg current s report).skipped =
        s.skipped := by
  unfold registerCamera
  dsimp only
  cases hFind :
      s.rows.find?
        (·.cameraId = cameraIdFor reg.nodeId report.path) with
  | some existing =>
      exact ⟨places_refreshed s.rows report existing.id, rfl,
        rfl, rfl⟩
  | none =>
      rcases List.mem_map.mp hKnown with ⟨row, hRow, hId⟩
      exact
        absurd (decide_eq_true hId)
          (List.find?_eq_none.mp hFind row hRow)

theorem find?_eq_none_of_new
    {rows : List Row}
    {cameraId : String}
    (hNew : cameraId ∉ rows.map (·.cameraId)) :
    rows.find? (·.cameraId = cameraId) = none := by
  rw [List.find?_eq_none]
  intro row hRow hId
  exact
    hNew
      (List.mem_map.mpr ⟨row, hRow, of_decide_eq_true hId⟩)

/- What a report of a new camera does when the plan is full. -/
theorem registerCamera_full
    {s : Pass}
    {report : CameraReport}
    (hNew :
      cameraIdFor reg.nodeId report.path ∉
        s.rows.map (·.cameraId))
    (hFull : reg.maxCameras ≤ current + s.newCameras) :
    (registerCamera reg current s report).rows = s.rows ∧
      (registerCamera reg current s report).newCameras =
        s.newCameras ∧
      (registerCamera reg current s report).nextId =
        s.nextId ∧
      (registerCamera reg current s report).skipped.length =
        s.skipped.length + 1 := by
  unfold registerCamera
  dsimp only
  rw [find?_eq_none_of_new hNew]
  simp only [ge_iff_le, if_pos hFull, List.length_append,
    List.length_singleton, and_self]

/- And when there is room. -/
theorem registerCamera_room
    {s : Pass}
    {report : CameraReport}
    (hNew :
      cameraIdFor reg.nodeId report.path ∉
        s.rows.map (·.cameraId))
    (hRoom : ¬ reg.maxCameras ≤ current + s.newCameras) :
    (registerCamera reg current s report).rows =
        s.rows ++ [newCamera reg report s.nextId] ∧
      (registerCamera reg current s report).newCameras =
        s.newCameras + 1 ∧
      (registerCamera reg current s report).nextId =
        s.nextId + 1 ∧
      (registerCamera reg current s report).skipped =
        s.skipped := by
  unfold registerCamera
  dsimp only
  rw [find?_eq_none_of_new hNew]
  simp only [ge_iff_le, if_neg hRoom, and_self]

theorem mapping_registerCamera
    (s : Pass)
    (report : CameraReport) :
    (registerCamera reg current s report).mapping =
      insertMapping report.path
        (cameraIdFor reg.nodeId report.path) s.mapping := by
  unfold registerCamera
  dsimp only
  split
  · rfl
  · split <;> rfl

--------------------
-- All Reports
--------------------

theorem newIds_cons
    (rows : List Row)
    (report : CameraReport)
    (rest : List CameraReport) :
    newIds reg rows (report :: rest) =
      if cameraIdFor reg.nodeId report.path ∉
          rows.map (·.cameraId) then
        cameraIdFor reg.nodeId report.path ::
          newIds reg rows rest
      else
        newIds reg rows rest := by
  unfold newIds reportIds
  rw [List.map_cons, List.filter_cons]
  simp only [decide_eq_true_eq]

theorem newIds_congr
    {rows others : List Row}
    (hPlaces : places others = places rows)
    (reports : List CameraReport) :
    newIds reg others reports = newIds reg rows reports := by
  unfold newIds
  rw [cameraIds_eq, cameraIds_eq, hPlaces]

/- A row that no further report names makes no difference. -/
theorem newIds_concat
    {rows : List Row}
    {row : Row}
    {reports : List CameraReport}
    (hOther : row.cameraId ∉ reportIds reg reports) :
    newIds reg (rows ++ [row]) reports =
      newIds reg rows reports := by
  unfold newIds
  apply List.filter_congr
  intro cameraId hIn
  have hNe : cameraId ≠ row.cameraId := by
    rintro rfl
    exact hOther hIn
  rw [List.map_append, List.map_singleton]
  simp only [List.mem_append, List.mem_singleton, hNe,
    or_false]

/-
  Of reports with distinct ids, the new cameras go in while
  there is room, and every other one is skipped.
-/
theorem registerCamera_foldl
    (current : Nat)
    {reports : List CameraReport}
    (hDistinct : (reportIds reg reports).Nodup)
    (s : Pass) :
    let after := reports.foldl (registerCamera reg current) s
    let room := reg.maxCameras - (current + s.newCameras)
    places after.rows =
        places s.rows ++
          newPlaces reg s.nextId
            ((newIds reg s.rows reports).take room) ∧
      after.skipped.length =
        s.skipped.length +
          ((newIds reg s.rows reports).length - room) := by
  induction reports generalizing s with
  | nil =>
      intro after room
      exact ⟨by simp [after, newIds, reportIds, newPlaces],
        by simp [after, newIds, reportIds]⟩
  | cons report rest ih =>
      intro after room
      have hRest : (reportIds reg rest).Nodup :=
        (List.nodup_cons.mp hDistinct).2
      have hOther :
          cameraIdFor reg.nodeId report.path ∉
            reportIds reg rest :=
        (List.nodup_cons.mp hDistinct).1
      have hAfter :=
        ih hRest (registerCamera reg current s report)
      dsimp only at hAfter
      change places after.rows = _ ∧ after.skipped.length = _
        at hAfter
      rw [newIds_cons]
      by_cases hKnown :
          cameraIdFor reg.nodeId report.path ∈
            s.rows.map (·.cameraId)
      · obtain ⟨hPlaces, hCount, hNext, hSkipped⟩ :=
          registerCamera_known current hKnown
        rw [if_neg (not_not.mpr hKnown)]
        rw [hPlaces, hCount, hNext, hSkipped,
          newIds_congr hPlaces] at hAfter
        exact hAfter
      · rw [if_pos hKnown]
        by_cases hFull :
            reg.maxCameras ≤ current + s.newCameras
        · obtain ⟨hRows, hCount, hNext, hSkipped⟩ :=
            registerCamera_full hKnown hFull
          have hRoom : room = 0 := Nat.sub_eq_zero_of_le hFull
          rw [hRows, hCount, hNext, hSkipped,
            Nat.sub_eq_zero_of_le hFull] at hAfter
          rw [hRoom]
          refine ⟨hAfter.1, ?_⟩
          rw [hAfter.2, List.length_cons]
          omega
        · obtain ⟨hRows, hCount, hNext, hSkipped⟩ :=
            registerCamera_room hKnown hFull
          have hRoom :
              room =
                reg.maxCameras -
                    (current + (s.newCameras + 1)) + 1 := by
            omega
          rw [hRows, hCount, hNext, hSkipped, places_concat,
            newIds_concat hOther] at hAfter
          rw [hRoom]
          constructor
          · rw [hAfter.1, List.append_assoc]
            rfl
          · rw [hAfter.2, List.length_cons]
            omega

/- The mapping is of the reports alone. -/
theorem mapping_registerCamera_foldl
    (reports : List CameraReport)
    (s : Pass) :
    (reports.foldl (registerCamera reg current) s).mapping =
      reports.foldl
        (fun mapping report =>
          insertMapping report.path
            (cameraIdFor reg.nodeId report.path) mapping)
        s.mapping := by
  induction reports generalizing s with
  | nil => rfl
  | cons report rest ih =>
      rw [List.foldl_cons, List.foldl_cons, ih,
        mapping_registerCamera]

theorem mem_keys_foldl
    (nodeId path : String)
    (reports : List CameraReport)
    (mapping : List (String × String)) :
    path ∈
        (reports.foldl
          (fun mapping report =>
            insertMapping report.path
              (cameraIdFor nodeId report.path) mapping)
          mapping).map Prod.fst ↔
      path ∈ mapping.map Prod.fst ∨
        ∃ report ∈ reports, report.path = path := by
  induction reports generalizing mapping with
  | nil => simp
  | cons report rest ih =>
      rw [List.foldl_cons, ih, keys_insertMapping]
      split
      · rename_i hHad
        constructor
        · rintro (hIn | ⟨other, hOther, hPath⟩)
          · exact Or.inl hIn
          · exact
              Or.inr
                ⟨other, List.mem_cons_of_mem _ hOther, hPath⟩
        · rintro (hIn | ⟨other, hOther, hPath⟩)
          · exact Or.inl hIn
          · rcases List.mem_cons.mp hOther with rfl | hRest
            · exact Or.inl (hPath ▸ hHad)
            · exact Or.inr ⟨other, hRest, hPath⟩
      · rw [List.mem_append, List.mem_singleton, or_assoc,
          List.exists_mem_cons_iff, eq_comm]

/- The values of the mapping are the reported ids. -/
theorem mem_values_iff
    (nodeId cameraId : String)
    (reports : List CameraReport) :
    cameraId ∈ (cameraMapping nodeId reports).map Prod.snd ↔
      cameraId ∈
        reports.map
          (fun report => cameraIdFor nodeId report.path) := by
  have hMapping :
      MapsPaths nodeId reports (cameraMapping nodeId reports) :=
    mapsPaths_cameraMapping reports
  rw [List.mem_map, List.mem_map]
  constructor
  · rintro ⟨entry, hEntry, rfl⟩
    rcases hMapping.entries entry hEntry
      with ⟨report, hReport, rfl⟩
    exact ⟨report, hReport, rfl⟩
  · rintro ⟨report, hReport, rfl⟩
    have hKey :
        report.path ∈
          (cameraMapping nodeId reports).map Prod.fst :=
      (mem_keys_foldl nodeId report.path reports []).mpr
        (Or.inr ⟨report, hReport, rfl⟩)
    rcases List.mem_map.mp hKey with ⟨entry, hEntry, hPath⟩
    rcases hMapping.entries entry hEntry with ⟨other, -, hOther⟩
    refine ⟨entry, hEntry, ?_⟩
    rw [hOther] at hPath ⊢
    exact congrArg (cameraIdFor nodeId) hPath

--------------------
-- A Registration
--------------------

variable {lower : List Char → List Char}
variable {plan : String}
variable {clock : Nat → Int}
variable {rows : List Row}
variable {nextId : Int}
variable {reports : List CameraReport}

def isStalePlace
    (reg : Registration)
    (reported : List String)
    (place : Place) : Bool :=
  place.nodeRef == some reg.nodeRef &&
    !reported.contains place.cameraId

theorem reported_passReports (cameraId : String) :
    ((passReports reg rows nextId reports).mapping.map
        Prod.snd).contains cameraId =
      (reportIds reg reports).contains cameraId := by
  rw [Bool.eq_iff_iff, List.contains_iff_mem,
    List.contains_iff_mem]
  unfold passReports
  rw [mapping_registerCamera_foldl]
  exact mem_values_iff reg.nodeId cameraId reports

/- The cap writes flags, and no place. -/
theorem places_enforce
    (lower : List Char → List Char)
    (plan orgId : String)
    (clock : Nat → Int)
    (table : List Row) :
    places
        (enforceCameraCapAlone lower plan orgId clock table).1 =
      places table := by
  have hFrame (cameras : List Row) :
      places cameras =
        (cameras.map TableCamera.frame).map placeOf := by
    rw [List.map_map]
    rfl
  rw [hFrame, hFrame]
  exact
    congrArg (List.map placeOf) (frame_writeFlags 0 table)

theorem places_removeStale :
    places
        (removeStale reg
          (passReports reg rows nextId reports)).rows =
      (places (passReports reg rows nextId reports).rows).filter
        (fun place =>
          !isStalePlace reg (reportIds reg reports) place) := by
  unfold places
  rw [List.filter_map]
  apply congrArg (List.map placeOf)
  apply List.filter_congr
  intro row _
  unfold isStale
  rw [reported_passReports]
  rfl

theorem newPlaces_now
    (reg : Registration)
    (later nextId : Int)
    (ids : List String) :
    newPlaces { reg with now := later } nextId ids =
      newPlaces reg nextId ids := by
  induction ids generalizing nextId with
  | nil => rfl
  | cons cameraId rest ih =>
      unfold newPlaces
      rw [ih]

theorem newPlaces_eq_nil_iff
    {ids : List String} :
    newPlaces reg nextId ids = [] ↔ ids = [] := by
  cases ids with
  | nil => exact iff_of_true rfl rfl
  | cons cameraId rest => exact iff_of_false nofun nofun

/- New cameras are the organization's and the node's. -/
theorem mem_newPlaces
    {ids : List String}
    {place : Place}
    (hIn : place ∈ newPlaces reg nextId ids) :
    place.cameraId ∈ ids ∧ place.orgId = reg.orgId ∧
      place.nodeRef = some reg.nodeRef := by
  induction ids generalizing nextId with
  | nil => cases hIn
  | cons cameraId rest ih =>
      rcases List.mem_cons.mp hIn with rfl | hRest
      · exact ⟨List.mem_cons_self, rfl, rfl⟩
      · obtain ⟨hId, hOrg, hNode⟩ := ih hRest
        exact ⟨List.mem_cons_of_mem cameraId hId, hOrg, hNode⟩

theorem cameraIds_newPlaces (ids : List String) :
    (newPlaces reg nextId ids).map Place.cameraId = ids := by
  induction ids generalizing nextId with
  | nil => rfl
  | cons cameraId rest ih =>
      unfold newPlaces
      rw [List.map_cons, ih]

theorem mem_reportIds_of_newPlaces
    {room : Nat}
    {place : Place}
    (hIn :
      place ∈
        newPlaces reg nextId
          ((newIds reg rows reports).take room)) :
    place.cameraId ∈ reportIds reg reports :=
  (List.mem_filter.mp
    (List.mem_of_mem_take (mem_newPlaces hIn).1)).1

/-
  The stale rows go, and of the new cameras as many come as
  there was room for.
-/
theorem places_registerCameras
    (hDistinct : (reportIds reg reports).Nodup) :
    places
        (registerCameras lower plan clock reg rows nextId
          reports).rows =
      (places rows).filter
          (fun place =>
            !isStalePlace reg (reportIds reg reports) place) ++
        newPlaces reg nextId
          ((newIds reg rows reports).take
            (roomLeft reg rows)) := by
  have hPass :=
    (registerCamera_foldl (orgCount rows reg.orgId) hDistinct
      (startPass rows nextId)).1
  have hNew :
      (newPlaces reg nextId
          ((newIds reg rows reports).take
            (roomLeft reg rows))).filter
          (fun place =>
            !isStalePlace reg (reportIds reg reports) place) =
        newPlaces reg nextId
          ((newIds reg rows reports).take
            (roomLeft reg rows)) := by
    rw [List.filter_eq_self]
    intro place hPlace
    have hReported : place.cameraId ∈ reportIds reg reports :=
      mem_reportIds_of_newPlaces hPlace
    unfold isStalePlace
    rw [List.contains_iff_mem.mpr hReported]
    exact congrArg not (Bool.and_false _)
  calc places
        (registerCameras lower plan clock reg rows nextId
          reports).rows
      = places
          (removeStale reg
            (passReports reg rows nextId reports)).rows :=
        places_enforce lower plan reg.orgId clock _
    _ = _ := by
        rw [places_removeStale]
        unfold passReports
        rw [hPass, List.filter_append]
        exact congrArg (List.append _) hNew

theorem skipped_registerCameras
    (hDistinct : (reportIds reg reports).Nodup) :
    (registerCameras lower plan clock reg rows nextId
        reports).skipped.length =
      (newIds reg rows reports).length - roomLeft reg rows := by
  have hPass :=
    (registerCamera_foldl (orgCount rows reg.orgId) hDistinct
      (startPass rows nextId)).2
  refine hPass.trans ?_
  exact Nat.zero_add _

theorem orgCount_eq (table : List Row) (orgId : String) :
    orgCount table orgId =
      (places table).countP (·.orgId = orgId) := by
  unfold places
  rw [List.countP_map]
  rfl

theorem length_newPlaces
    (reg : Registration)
    (nextId : Int)
    (ids : List String) :
    (newPlaces reg nextId ids).length = ids.length := by
  rw [← List.length_map Place.cameraId, cameraIds_newPlaces]

/- What comes and what goes. -/
theorem orgCount_registerCameras
    (hDistinct : (reportIds reg reports).Nodup) :
    orgCount
          (registerCameras lower plan clock reg rows nextId
            reports).rows
          reg.orgId +
        staleCount reg rows reports =
      orgCount rows reg.orgId +
        min (roomLeft reg rows)
          (newIds reg rows reports).length := by
  let isOwn : Place → Bool := (·.orgId = reg.orgId)
  let stale : Place → Bool :=
    isStalePlace reg (reportIds reg reports)
  have hStale :
      staleCount reg rows reports =
        (places rows).countP
          (fun place => isOwn place && stale place) := by
    unfold places
    rw [List.countP_map]
    rfl
  have hNew :
      (newPlaces reg nextId
          ((newIds reg rows reports).take
            (roomLeft reg rows))).countP isOwn =
        min (roomLeft reg rows)
          (newIds reg rows reports).length := by
    rw [← List.length_take,
      ← length_newPlaces reg nextId,
      List.countP_eq_length]
    intro place hPlace
    exact decide_eq_true (mem_newPlaces hPlace).2.1
  have hSplit :
      (places rows).countP isOwn =
        (places rows).countP
            (fun place => isOwn place && stale place) +
          ((places rows).filter
            (fun place => !stale place)).countP isOwn := by
    rw [List.countP_filter,
      List.countP_eq_countP_filter_add _ isOwn stale,
      List.countP_filter, List.countP_filter]
  rw [orgCount_eq, places_registerCameras hDistinct,
    List.countP_append, hStale, orgCount_eq rows]
  change
    ((places rows).filter (fun place => !stale place)).countP
          isOwn +
        (newPlaces reg nextId _).countP isOwn + _ = _
  rw [hNew, hSplit]
  omega

--------------------
-- And Again
--------------------

/- A reported camera that had a row keeps one. -/
theorem mem_kept_iff
    {cameraId : String}
    (hReported : cameraId ∈ reportIds reg reports) :
    cameraId ∈
        ((places rows).filter
          (fun place =>
            !isStalePlace reg (reportIds reg reports)
              place)).map Place.cameraId ↔
      cameraId ∈ rows.map (·.cameraId) := by
  rw [cameraIds_eq, List.mem_map, List.mem_map]
  constructor
  · rintro ⟨place, hPlace, hId⟩
    exact ⟨place, (List.mem_filter.mp hPlace).1, hId⟩
  · rintro ⟨place, hPlace, rfl⟩
    refine ⟨place, List.mem_filter.mpr ⟨hPlace, ?_⟩, rfl⟩
    unfold isStalePlace
    rw [List.contains_iff_mem.mpr hReported]
    exact congrArg not (Bool.and_false _)

/- What is new the second time is what was skipped. -/
theorem newIds_again_eq_nil_iff
    (hDistinct : (reportIds reg reports).Nodup) :
    newIds reg
        (registerCameras lower plan clock reg rows nextId
          reports).rows
        reports = [] ↔
      (newIds reg rows reports).length ≤ roomLeft reg rows := by
  have hNodup : (newIds reg rows reports).Nodup :=
    hDistinct.filter _
  have hIn (cameraId : String)
      (hReported : cameraId ∈ reportIds reg reports) :
      cameraId ∈
          (registerCameras lower plan clock reg rows nextId
            reports).rows.map (·.cameraId) ↔
        cameraId ∈ rows.map (·.cameraId) ∨
          cameraId ∈
            (newIds reg rows reports).take
              (roomLeft reg rows) := by
    rw [cameraIds_eq, places_registerCameras hDistinct,
      List.map_append, List.mem_append, mem_kept_iff hReported,
      cameraIds_newPlaces]
  rw [← List.drop_eq_nil_iff]
  constructor
  · intro hNone
    rw [List.eq_nil_iff_forall_not_mem]
    intro cameraId hDropped
    have hNew : cameraId ∈ newIds reg rows reports :=
      List.mem_of_mem_drop hDropped
    obtain ⟨hReported, hAbsent⟩ := List.mem_filter.mp hNew
    have hHas :=
      List.filter_eq_nil_iff.mp hNone cameraId hReported
    rw [decide_eq_true_eq, not_not, hIn cameraId hReported]
      at hHas
    rcases hHas with hHad | hTaken
    · exact of_decide_eq_true hAbsent hHad
    · exact
        List.disjoint_take_drop hNodup le_rfl hTaken hDropped
  · intro hNone
    unfold newIds
    rw [List.filter_eq_nil_iff]
    intro cameraId hReported
    rw [decide_eq_true_eq, not_not, hIn cameraId hReported]
    by_cases hHad : cameraId ∈ rows.map (·.cameraId)
    · exact Or.inl hHad
    · right
      have hNew : cameraId ∈ newIds reg rows reports :=
        List.mem_filter.mpr ⟨hReported, decide_eq_true hHad⟩
      rw [← List.take_append_drop (roomLeft reg rows)
        (newIds reg rows reports), hNone, List.append_nil]
        at hNew
      exact hNew

/- Nothing is stale the second time. -/
theorem kept_again
    (hDistinct : (reportIds reg reports).Nodup) :
    (places
        (registerCameras lower plan clock reg rows nextId
          reports).rows).filter
        (fun place =>
          !isStalePlace reg (reportIds reg reports) place) =
      places
        (registerCameras lower plan clock reg rows nextId
          reports).rows := by
  rw [List.filter_eq_self, places_registerCameras hDistinct]
  intro place hPlace
  rcases List.mem_append.mp hPlace with hKept | hNew
  · exact (List.mem_filter.mp hKept).2
  · unfold isStalePlace
    rw [List.contains_iff_mem.mpr
      (mem_reportIds_of_newPlaces hNew)]
    exact congrArg not (Bool.and_false _)

/-
  Repeating a registration leaves the rows that exist as they
  are when nothing was skipped, or nothing fits now.
-/
theorem ids_again_iff
    (again : Nat → Int)
    (later : Int)
    (hDistinct : (reportIds reg reports).Nodup) :
    let first :=
      registerCameras lower plan clock reg rows nextId reports
    let second :=
      registerCameras lower plan again
        { reg with now := later } first.rows first.nextId
        reports
    second.rows.map (·.id) = first.rows.map (·.id) ↔
      (newIds reg rows reports).length ≤ roomLeft reg rows ∨
        roomLeft reg first.rows = 0 := by
  intro first second
  have hIds (cameras : List Row) :
      cameras.map (·.id) = (places cameras).map Place.id := by
    unfold places
    rw [List.map_map]
    rfl
  have hSecond :
      places second.rows =
        places first.rows ++
          newPlaces reg first.nextId
            ((newIds reg first.rows reports).take
              (roomLeft reg first.rows)) := by
    have hAgain :
        places second.rows =
          (places first.rows).filter
              (fun place =>
                !isStalePlace reg (reportIds reg reports)
                  place) ++
            newPlaces { reg with now := later } first.nextId
              ((newIds reg first.rows reports).take
                (roomLeft reg first.rows)) :=
      places_registerCameras hDistinct
    rw [hAgain, kept_again hDistinct, newPlaces_now]
  rw [hIds, hIds, hSecond, List.map_append,
    List.append_right_eq_self, List.map_eq_nil_iff,
    newPlaces_eq_nil_iff, List.take_eq_nil_iff, or_comm,
    newIds_again_eq_nil_iff hDistinct]

/-
  Room is used, and repeating the call changes no row's
  existence, exactly when the new cameras fit beside the
  stale ones, or no stale one of the organization's goes that
  the cap did not already have too many of.
-/
theorem room_used_iff
    (lower : List Char → List Char)
    (plan : String)
    (clock again : Nat → Int)
    (reg : Registration)
    (rows : List Row)
    (nextId later : Int)
    (reports : List CameraReport)
    (hDistinct : (reportIds reg reports).Nodup) :
    let first :=
      registerCameras lower plan clock reg rows nextId reports
    let second :=
      registerCameras lower plan again
        { reg with now := later } first.rows first.nextId
        reports
    (UsesRoom reg first ∧
        second.rows.map (·.id) = first.rows.map (·.id)) ↔
      (newIds reg rows reports).length ≤ roomLeft reg rows ∨
        staleCount reg rows reports ≤
          orgCount rows reg.orgId - reg.maxCameras := by
  intro first second
  have hCount :
      orgCount first.rows reg.orgId +
          staleCount reg rows reports =
        orgCount rows reg.orgId +
          min (roomLeft reg rows)
            (newIds reg rows reports).length :=
    orgCount_registerCameras hDistinct
  have hSkipped :
      first.skipped ≠ [] ↔
        roomLeft reg rows <
          (newIds reg rows reports).length := by
    rw [← List.length_pos_iff,
      skipped_registerCameras hDistinct, Nat.sub_pos_iff_lt]
  have hAgain :
      second.rows.map (·.id) = first.rows.map (·.id) ↔
        (newIds reg rows reports).length ≤ roomLeft reg rows ∨
          roomLeft reg first.rows = 0 :=
    ids_again_iff again later hDistinct
  unfold UsesRoom
  rw [hAgain, hSkipped]
  change
    (_ → reg.maxCameras ≤ orgCount first.rows reg.orgId) ∧
      (_ ∨ reg.maxCameras - orgCount first.rows reg.orgId = 0)
      ↔ _
  have hRoom :
      roomLeft reg rows =
        reg.maxCameras - orgCount rows reg.orgId := rfl
  omega

/- A node whose organization has the cameras it may have. -/
def fullNode : Registration where
  nodeId := "node"
  nodeRef := 1
  orgId := "org"
  maxCameras := 5
  videoCodec := none
  audioCodec := none
  now := 7

def reportPaths (paths : List String) : List CameraReport :=
  paths.map
    (fun path =>
      { cameraId := none
        devicePath := some path
        name := none
        nodeType := none
        capabilities := none })

def fullRows : List Row :=
  (registerCameras id "free_org" (fun _ => 0) fullNode [] 1
    (reportPaths ["a", "b", "c", "d", "e"])).rows

/- One camera is renamed within the room of a larger plan. -/
theorem room_used_iff_larger :
    let reg := { fullNode with maxCameras := 25 }
    let reports := reportPaths ["a", "b", "c", "d", "f"]
    let first :=
      registerCameras id "pro" (fun _ => 0) reg fullRows 6
        reports
    let second :=
      registerCameras id "pro" (fun _ => 1)
        { reg with now := 8 } first.rows first.nextId reports
    UsesRoom reg first ∧
      second.rows.map (·.id) = first.rows.map (·.id) :=
  (room_used_iff id "pro" (fun _ => 0) (fun _ => 1)
    { fullNode with maxCameras := 25 } fullRows 6 8
    (reportPaths ["a", "b", "c", "d", "f"])
    (by decide)).mpr (Or.inl (by decide))

/-
  All five are renamed: the new ones are skipped, the old
  ones removed, and the next registration inserts the five.
-/
theorem renamed_cameras_skipped :
    let reports := reportPaths ["f", "g", "h", "i", "j"]
    let first :=
      registerCameras id "free_org" (fun _ => 0) fullNode
        fullRows 6 reports
    let second :=
      registerCameras id "free_org" (fun _ => 1)
        { fullNode with now := 8 } first.rows first.nextId
        reports
    (reportIds fullNode reports).Nodup ∧
      first.skipped = ["f", "g", "h", "i", "j"] ∧
      orgCount first.rows "org" = 0 ∧
      ¬ UsesRoom fullNode first ∧
      second.rows.map (·.id) = [6, 7, 8, 9, 10] ∧
      second.rows.map (·.id) ≠ first.rows.map (·.id) := by
  refine
    ⟨by decide, by decide, by decide, ?_, by decide,
      by decide⟩
  intro hUses
  exact absurd (hUses (by decide)) (by decide)

end Nodes

end SentinelCommand
