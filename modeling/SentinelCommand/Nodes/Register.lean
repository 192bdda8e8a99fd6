import SentinelCommand.Heartbeat.Reports
import SentinelCommand.Plans.CapTable

/-
  The camera part of `POST /api/nodes/register`, once the
  node is authenticated and its plan resolved.

  Every reported camera has an id that is made of the node's
  id and of the device path with its separators replaced.
  New cameras are inserted while the plan has room, and then
  the cameras the node no longer reports are removed.

  Main declarations:
    * `Nodes.cameraIdFor`
    * `Nodes.ids_apart_iff`
    * `Nodes.separators_collide`
-/

--------------------
-- Reports
--------------------

namespace SentinelCommand

namespace Nodes

structure CameraReport where
  cameraId : Option String
  devicePath : Option String
  name : Option String
  nodeType : Option String
  capabilities : Option (List String)
  deriving DecidableEq, Repr

/- `filter(|text| !text.is_empty())`. -/
def present (text : Option String) : Option String :=
  text.filter (· ≠ "")

/- The device path, else the camera id, else `unknown`. -/
def CameraReport.path (report : CameraReport) : String :=
  ((present report.devicePath).or
    (present report.cameraId)).getD "unknown"

/- What the replacement and the trimming do not tell apart. -/
def isSeparator (c : Char) : Bool :=
  c == '/' || c == '\\' || c == ' ' || c == '_'

/- `replace(['/', '\\', ' '], "_")`. -/
def replaced (c : Char) : Char :=
  if c = '/' ∨ c = '\\' ∨ c = ' ' then '_' else c

/- `trim_matches`. -/
def trimMatches
    (hit : Char → Bool)
    (text : List Char) : List Char :=
  ((text.dropWhile hit).reverse.dropWhile hit).reverse

def sanitizedDevice (path : String) : String :=
  String.ofList
    (trimMatches (· == '_') (path.toList.map replaced))

def cameraIdFor (nodeId path : String) : String :=
  nodeId ++ "_" ++ sanitizedDevice path

/- `camera_mapping.insert`; a path keeps its first place. -/
def insertMapping
    (path cameraId : String) :
    List (String × String) → List (String × String)
| [] => [(path, cameraId)]
| entry :: rest =>
    if entry.1 = path then
      (path, cameraId) :: rest
    else
      entry :: insertMapping path cameraId rest

--------------------
-- The Pass over the Reports
--------------------

open Heartbeat Plans

/- The columns of `cameras` that the cap does not touch. -/
structure Details where
  nodeRef : Option Int
  name : Option String
  nodeType : Option String
  capabilities : Option String
  status : Option String
  lastSeen : Option Int
  videoCodec : Option String
  audioCodec : Option String
  codecDetectedAt : Option Int
  continuous : Bool
  scheduledRecording : Bool
  deriving DecidableEq, Repr

abbrev Row : Type :=
  TableCamera Details

/- The node, its plan's limit, and the codecs it reports. -/
structure Registration where
  nodeId : String
  nodeRef : Int
  orgId : String
  maxCameras : Nat
  videoCodec : Option String
  audioCodec : Option String
  now : Int
  deriving DecidableEq, Repr

structure Pass where
  rows : List Row
  nextId : Int
  mapping : List (String × String)
  newCameras : Nat
  skipped : List String
  transitions : List CameraTransition
  deriving DecidableEq, Repr

def orgCount (rows : List Row) (orgId : String) : Nat :=
  rows.countP (·.orgId = orgId)

/- A camera that the table has: its name, and that it is up. -/
def refreshed
    (reg : Registration)
    (report : CameraReport)
    (row : Row) : Row :=
  { row with
    updatedAt := some reg.now
    rest :=
      { row.rest with
        name := (present report.name).or row.rest.name
        status := some "online"
        lastSeen := some reg.now
        videoCodec :=
          if reg.videoCodec.isSome then
            reg.videoCodec
          else
            row.rest.videoCodec
        audioCodec :=
          if reg.videoCodec.isSome then
            reg.audioCodec
          else
            row.rest.audioCodec } }

/- The row of a new camera. -/
def newCamera
    (reg : Registration)
    (report : CameraReport)
    (id : Int) : Row where
  id := id
  cameraId := cameraIdFor reg.nodeId report.path
  createdAt := some reg.now
  disabledByPlan := some false
  orgId := reg.orgId
  updatedAt := some reg.now
  rest :=
    { nodeRef := some reg.nodeRef
      name :=
        some
          ((present report.name).getD
            ("Camera " ++ sanitizedDevice report.path))
      nodeType := some ((present report.nodeType).getD "usb")
      capabilities :=
        some
          (match report.capabilities with
          | some (first :: rest) =>
              ",".intercalate (first :: rest)
          | _ => "streaming")
      status := some "online"
      lastSeen := some reg.now
      videoCodec := reg.videoCodec
      audioCodec := reg.audioCodec
      codecDetectedAt := reg.videoCodec.map (fun _ => reg.now)
      continuous := false
      scheduledRecording := false }

/- `current_cameras` was counted before the first report. -/
def registerCamera
    (reg : Registration)
    (current : Nat)
    (s : Pass)
    (report : CameraReport) : Pass :=
  let cameraId := cameraIdFor reg.nodeId report.path
  let mapping := insertMapping report.path cameraId s.mapping
  match s.rows.find? (·.cameraId = cameraId) with
  | some existing =>
      let name := (present report.name).or existing.rest.name
      let transition :=
        (cameraTransition existing.rest.status "online").map
          (fun direction =>
            { cameraId := cameraId
              displayName := (present name).getD cameraId
              direction := direction })
      { s with
        rows :=
          s.rows.map
            (fun row =>
              if row.id = existing.id then
                refreshed reg report row
              else
                row)
        mapping := mapping
        transitions := s.transitions ++ transition.toList }
  | none =>
      if current + s.newCameras ≥ reg.maxCameras then
        { s with
          mapping := mapping
          skipped :=
            s.skipped ++
              [(present report.name).getD
                (sanitizedDevice report.path)] }
      else
        { s with
          rows := s.rows ++ [newCamera reg report s.nextId]
          nextId := s.nextId + 1
          mapping := mapping
          newCameras := s.newCameras + 1 }

def startPass (rows : List Row) (nextId : Int) : Pass where
  rows := rows
  nextId := nextId
  mapping := []
  newCameras := 0
  skipped := []
  transitions := []

def passReports
    (reg : Registration)
    (rows : List Row)
    (nextId : Int)
    (reports : List CameraReport) : Pass :=
  reports.foldl (registerCamera reg (orgCount rows reg.orgId))
    (startPass rows nextId)

/- A row of the node that no report has; `id` is the key. -/
def isStale
    (reg : Registration)
    (reported : List String)
    (row : Row) : Bool :=
  row.rest.nodeRef == some reg.nodeRef &&
    !reported.contains row.cameraId

def removeStale
    (reg : Registration)
    (s : Pass) : Pass :=
  { s with
    rows :=
      s.rows.filter
        (fun row =>
          !isStale reg (s.mapping.map Prod.snd) row) }

/-
  The reports, the stale cameras, and the cap on the plan as
  it is in effect.
-/
def registerCameras
    (lower : List Char → List Char)
    (effectivePlan : String)
    (clock : Nat → Int)
    (reg : Registration)
    (rows : List Row)
    (nextId : Int)
    (reports : List CameraReport) : Pass :=
  let left :=
    removeStale reg (passReports reg rows nextId reports)
  { left with
    rows :=
      (enforceCameraCapAlone lower effectivePlan reg.orgId clock
        left.rows).1 }

--------------------
-- Identity
--------------------

variable {nodeId : String}

/- The same character, or a separator for a separator. -/
def SameMark (a b : Char) : Prop :=
  a = b ∨ isSeparator a = true ∧ isSeparator b = true

/-
  Two paths that differ in the separators around them, and
  inside in which separator stands at a place.
-/
def Alike (first second : String) : Prop :=
  List.Forall₂ SameMark
    (trimMatches isSeparator first.toList)
    (trimMatches isSeparator second.toList)

/- The mapping of the answer. -/
def cameraMapping
    (nodeId : String)
    (reports : List CameraReport) : List (String × String) :=
  reports.foldl
    (fun mapping report =>
      insertMapping report.path
        (cameraIdFor nodeId report.path) mapping)
    []

/- Different paths have different ids. -/
def OneToOne
    (nodeId : String)
    (reports : List CameraReport) : Prop :=
  (∀ first ∈ reports, ∀ second ∈ reports,
      first.path ≠ second.path →
        cameraIdFor nodeId first.path ≠
          cameraIdFor nodeId second.path) ∧
    ((cameraMapping nodeId reports).map Prod.snd).Nodup

theorem isSeparator_iff (c : Char) :
    isSeparator c = true ↔
      c = '/' ∨ c = '\\' ∨ c = ' ' ∨ c = '_' := by
  simp [isSeparator, or_assoc]

theorem replaced_eq_underscore_iff (c : Char) :
    replaced c = '_' ↔ isSeparator c = true := by
  rw [isSeparator_iff]
  unfold replaced
  split
  · rename_i hHit
    refine iff_of_true rfl ?_
    rcases hHit with hHit | hHit | hHit
    · exact Or.inl hHit
    · exact Or.inr (Or.inl hHit)
    · exact Or.inr (Or.inr (Or.inl hHit))
  · rename_i hMiss
    simp only [not_or] at hMiss
    constructor
    · intro hUnderscore
      exact Or.inr (Or.inr (Or.inr hUnderscore))
    · rintro (hHit | hHit | hHit | hHit)
      · exact absurd hHit hMiss.1
      · exact absurd hHit hMiss.2.1
      · exact absurd hHit hMiss.2.2
      · exact hHit

theorem replaced_of_not
    {c : Char}
    (hMiss : isSeparator c ≠ true) :
    replaced c = c := by
  rw [Ne, isSeparator_iff] at hMiss
  apply if_neg
  rintro (hHit | hHit | hHit)
  · exact hMiss (Or.inl hHit)
  · exact hMiss (Or.inr (Or.inl hHit))
  · exact hMiss (Or.inr (Or.inr (Or.inl hHit)))

theorem replaced_eq_iff (a b : Char) :
    replaced a = replaced b ↔ SameMark a b := by
  unfold SameMark
  by_cases hFirst : isSeparator a = true
  · rw [(replaced_eq_underscore_iff a).mpr hFirst, eq_comm,
      replaced_eq_underscore_iff]
    constructor
    · intro hSecond
      exact Or.inr ⟨hFirst, hSecond⟩
    · rintro (hSame | hBoth)
      · exact hSame ▸ hFirst
      · exact hBoth.2
  · rw [replaced_of_not hFirst]
    constructor
    · intro hSame
      by_cases hSecond : isSeparator b = true
      · rw [(replaced_eq_underscore_iff b).mpr hSecond]
          at hSame
        rw [hSame] at hFirst
        exact absurd rfl hFirst
      · rw [replaced_of_not hSecond] at hSame
        exact Or.inl hSame
    · rintro (hSame | hBoth)
      · rw [← hSame, replaced_of_not hFirst]
      · exact absurd hBoth.1 hFirst

/- Replaced and trimmed, or trimmed and replaced. -/
theorem trimMatches_map
    (text : List Char) :
    trimMatches (· == '_') (text.map replaced) =
      (trimMatches isSeparator text).map replaced := by
  have hHit :
      ((fun c : Char => c == '_') ∘ replaced) = isSeparator := by
    funext c
    rw [Bool.eq_iff_iff, Function.comp_apply, beq_iff_eq,
      replaced_eq_underscore_iff]
  unfold trimMatches
  rw [List.dropWhile_map, hHit, ← List.map_reverse,
    List.dropWhile_map, hHit, List.map_reverse]

theorem sanitizedDevice_eq_iff (first second : String) :
    sanitizedDevice first = sanitizedDevice second ↔
      Alike first second := by
  unfold sanitizedDevice Alike
  rw [String.ofList_inj, trimMatches_map, trimMatches_map,
    ← List.forall₂_eq_eq_eq, List.forall₂_map_left_iff,
    List.forall₂_map_right_iff]
  simp only [replaced_eq_iff]

theorem cameraIdFor_eq_iff (first second : String) :
    cameraIdFor nodeId first = cameraIdFor nodeId second ↔
      Alike first second := by
  unfold cameraIdFor
  rw [String.append_right_inj, sanitizedDevice_eq_iff]

/- A path that the mapping has keeps its place. -/
theorem keys_insertMapping
    (path cameraId : String)
    (mapping : List (String × String)) :
    (insertMapping path cameraId mapping).map Prod.fst =
      if path ∈ mapping.map Prod.fst then
        mapping.map Prod.fst
      else
        mapping.map Prod.fst ++ [path] := by
  induction mapping with
  | nil => rfl
  | cons entry rest ih =>
      unfold insertMapping
      by_cases hHere : entry.1 = path
      · rw [if_pos hHere, if_pos]
        · rw [List.map_cons, List.map_cons, hHere]
        · rw [List.map_cons, hHere]
          exact List.mem_cons_self
      · have hIn :
            path ∈ (entry :: rest).map Prod.fst ↔
              path ∈ rest.map Prod.fst := by
          rw [List.map_cons, List.mem_cons]
          exact or_iff_right (Ne.symm hHere)
        rw [if_neg hHere, List.map_cons, ih]
        simp only [hIn]
        split <;> rfl

theorem mem_insertMapping
    {path cameraId : String}
    {mapping : List (String × String)}
    {entry : String × String}
    (hIn : entry ∈ insertMapping path cameraId mapping) :
    entry = (path, cameraId) ∨ entry ∈ mapping := by
  induction mapping with
  | nil => exact Or.inl (List.mem_singleton.mp hIn)
  | cons head rest ih =>
      unfold insertMapping at hIn
      split at hIn
      · rcases List.mem_cons.mp hIn with hHead | hRest
        · exact Or.inl hHead
        · exact Or.inr (List.mem_cons_of_mem head hRest)
      · rcases List.mem_cons.mp hIn with rfl | hRest
        · exact Or.inr List.mem_cons_self
        · rcases ih hRest with hNew | hOld
          · exact Or.inl hNew
          · exact Or.inr (List.mem_cons_of_mem head hOld)

/- Distinct keys, each with the id of a reported path. -/
structure MapsPaths
    (nodeId : String)
    (reports : List CameraReport)
    (mapping : List (String × String)) : Prop where
  keys : (mapping.map Prod.fst).Nodup
  entries :
    ∀ entry ∈ mapping, ∃ report ∈ reports,
      entry = (report.path, cameraIdFor nodeId report.path)

theorem mapsPaths_insertMapping
    {reports : List CameraReport}
    {mapping : List (String × String)}
    {report : CameraReport}
    (hReport : report ∈ reports)
    (hMapping : MapsPaths nodeId reports mapping) :
    MapsPaths nodeId reports
      (insertMapping report.path
        (cameraIdFor nodeId report.path) mapping) where
  keys := by
    rw [keys_insertMapping]
    split
    · exact hMapping.keys
    · rename_i hNew
      exact
        List.nodup_append'.mpr
          ⟨hMapping.keys, List.nodup_singleton _,
            List.disjoint_singleton.mpr hNew⟩
  entries := by
    intro entry hEntry
    rcases mem_insertMapping hEntry with hNew | hOld
    · exact ⟨report, hReport, hNew⟩
    · exact hMapping.entries entry hOld

theorem mapsPaths_cameraMapping
    (reports : List CameraReport) :
    MapsPaths nodeId reports (cameraMapping nodeId reports) := by
  unfold cameraMapping
  refine
    List.foldlRecOn reports _
      (motive := MapsPaths nodeId reports)
      ⟨List.nodup_nil, by simp⟩ ?_
  intro mapping hMapping report hReport
  exact mapsPaths_insertMapping hReport hMapping

/-
  Reported devices have ids of their own exactly when no two
  of their paths differ in separators only.
-/
theorem ids_apart_iff
    (nodeId : String)
    (reports : List CameraReport) :
    OneToOne nodeId reports ↔
      ∀ first ∈ reports, ∀ second ∈ reports,
        first.path ≠ second.path →
          ¬ Alike first.path second.path := by
  unfold OneToOne
  simp only [ne_eq, cameraIdFor_eq_iff]
  constructor
  · exact And.left
  · intro hApart
    refine ⟨hApart, ?_⟩
    have hMapping :
        MapsPaths nodeId reports
          (cameraMapping nodeId reports) :=
      mapsPaths_cameraMapping reports
    apply (List.Nodup.of_map Prod.fst hMapping.keys).map_on
    intro first hFirst second hSecond hSame
    rcases hMapping.entries first hFirst
      with ⟨report, hReport, rfl⟩
    rcases hMapping.entries second hSecond
      with ⟨other, hOther, rfl⟩
    by_cases hPath : report.path = other.path
    · rw [hPath]
    · exact
        absurd ((cameraIdFor_eq_iff _ _).mp hSame)
          (hApart report hReport other hOther hPath)

/- A slash in one path, and a space in the other. -/
def collidingReports : List CameraReport :=
  ["/dev/video0", "dev video0"].map
    (fun path =>
      { cameraId := none
        devicePath := some path
        name := none
        nodeType := none
        capabilities := none })

def collidingNode : Registration where
  nodeId := "node"
  nodeRef := 1
  orgId := "org"
  maxCameras := 5
  videoCodec := none
  audioCodec := none
  now := 0

/- The ids collide, and the two devices have one row. -/
theorem separators_collide :
    ¬ OneToOne "node" collidingReports ∧
      (registerCameras id "free_org" (fun _ => 0) collidingNode
          [] 1 collidingReports).rows.map (·.cameraId) =
        ["node_dev_video0"] := by
  constructor
  · intro hApart
    exact
      absurd (by decide)
        (hApart.1
          _ List.mem_cons_self
          _ (List.mem_cons_of_mem _ List.mem_cons_self)
          (by decide))
  · decide

end Nodes

end SentinelCommand
