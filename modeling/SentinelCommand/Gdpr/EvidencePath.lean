import Mathlib.Data.List.Infix
import SentinelCommand.Incidents.ToolIds
import SentinelCommand.Lib.Run

/-
  The media type of a piece of evidence, as the tools store
  it, as the route serves it and as the archive names its
  file.

  A clip's type carries its length as a parameter. The route
  strips parameters, and the archive does not.

  Key definitions include:
    * `EvidenceTypes.evidencePath`, `EvidenceTypes.evidenceFiles`
    * `EvidenceTypes.getEvidenceBlob`

  Key theorems include:
    * `EvidenceTypes.written_call`
    * `EvidenceTypes.archivedAsServed_iff`
-/

namespace SentinelCommand

namespace EvidenceTypes

open IncidentTools Privacy

--------------------
-- The Archive
--------------------

def extensionOf (mime : String) : String :=
  if mime = "image/jpeg" then "jpg"
  else if mime = "image/png" then "png"
  else if mime = "video/mp2t" then "ts"
  else if mime = "video/mp4" then "mp4"
  else "bin"

def fileNamed (row : EvidenceRow) (ext : String) : String :=
  "evidence/" ++ toString row.incidentId ++ "/" ++
    toString row.id ++ "." ++ ext

def evidencePath (row : EvidenceRow) : Option String :=
  row.dataMime.map (fun mime => fileNamed row (extensionOf mime))

/- The files of the evidence rows in `write_archive`. -/
def evidenceFiles
    (rows : List IncidentTools.Evidence) :
    List (String × List UInt8) :=
  rows.filterMap (fun row =>
    (evidencePath row.toEvidenceRow).bind (fun path =>
      row.data.map (fun data => (path, data))))

structure ApiError where
  status : Nat
  detail : String
  deriving DecidableEq, Repr

/- The stored type without its parameters. -/
def mediaType (dataMime : Option String) : String :=
  let raw := (dataMime.getD "").toList
  let bare := Text.trim (raw.takeWhile (· ≠ ';'))
  if bare = [] then "application/octet-stream"
  else String.ofList bare

def starletteContentType (mediaType : String) : String :=
  let lower := mediaType.toList.map Char.toLower
  if "text/".toList <+: mediaType.toList ∧
      ¬"charset=".toList <:+: lower then
    mediaType ++ "; charset=utf-8"
  else
    mediaType

/- The row is the caller's, if there is one. -/
def getEvidenceBlob
    (found : Option IncidentTools.Evidence) :
    Except ApiError (String × List UInt8) :=
  match found.bind (·.data) with
  | none => .error ⟨404, "Evidence blob not found"⟩
  | some [] => .error ⟨404, "Evidence blob not found"⟩
  | some (byte :: rest) =>
      let served :=
        starletteContentType
          (mediaType (found.bind (·.dataMime)))
      if Text.isHeaderValue served.toList then
        .ok (served, byte :: rest)
      else
        .error
          ⟨500, "evidence data_mime is not a valid header value"⟩

--------------------
-- The Table Over Time
--------------------

/-
  What reaches the evidence: a tool's call, the retention
  loop, and whatever else writes the database, which may
  delete evidence with its incident.
-/
inductive Event where
  | call
      (tool : IncidentTool)
      (around : Surroundings)
      (orgId keyName : String)
      (args : Fields)
  | purge (expired : IncidentTools.Evidence → Bool)
  | elsewhere (db : Db) (kept : IncidentTools.Evidence → Bool)

/- The video of an old clip goes, and its type with it. -/
def purgeRow
    (expired : IncidentTools.Evidence → Bool)
    (row : IncidentTools.Evidence) : IncidentTools.Evidence :=
  if row.kind = "clip" ∧ row.data.isSome ∧ expired row then
    { row with data := none, dataMime := none }
  else
    row

def step (s : Store) : Event → Store
| .call tool around orgId keyName args =>
    (call tool s around orgId keyName args).1
| .purge expired =>
    { s with evidence := s.evidence.map (purgeRow expired) }
| .elsewhere db kept =>
    { s with db := db, evidence := s.evidence.filter kept }

/- What the tools write, and what is left of it. -/
inductive Written (row : IncidentTools.Evidence) : Prop where
  | empty (hData : row.data = none)
  | snapshot
      (hKind : row.kind = "snapshot")
      (hMime : row.dataMime = some "image/jpeg")
  | clip
      (segmentCount : Nat)
      (hKind : row.kind = "clip")
      (hMime : row.dataMime = some (clipMime segmentCount))

def AllWritten (s : Store) : Prop :=
  ∀ row ∈ s.evidence, Written row

theorem allWritten_withIncident
    {s : Store}
    {orgId : String}
    {incidentId : Int}
    {found : Incident → ToolResult}
    (hSame : AllWritten s)
    (hFound : ∀ row, AllWritten (found row).1) :
    AllWritten (withIncident s orgId incidentId found).1 := by
  rw [withIncident]
  cases ownedIncident s.db orgId (asI32 incidentId) with
  | none => exact hSame
  | some row => exact hFound row

theorem allWritten_withEvidence
    {s : Store}
    {orgId : String}
    {evidenceId incidentId : Int}
    {found : IncidentTools.Evidence → Except Refusal Answer}
    (hSame : AllWritten s) :
    AllWritten
      (withEvidence s orgId evidenceId incidentId found).1 := by
  refine allWritten_withIncident hSame (fun _ => ?_)
  cases evidenceOn s evidenceId incidentId with
  | none => exact hSame
  | some row => exact hSame

theorem allWritten_insert
    {s : Store}
    {incidentId now : Int}
    {kind orgId : String}
    {text cameraId mime : Option String}
    {data : Option (List UInt8)}
    (hSame : AllWritten s)
    (hRow :
      Written (insertEvidence s incidentId kind text cameraId
        data mime now).2) :
    AllWritten
      (touchIncident
        (insertEvidence s incidentId kind text cameraId data
          mime now).1 orgId incidentId now) := by
  intro row hMem
  rw [touchIncident, insertEvidence, List.mem_append,
    List.mem_singleton] at hMem
  rcases hMem with hOld | rfl
  · exact hSame row hOld
  · exact hRow

theorem written_attachClip
    {s : Store}
    (around : Surroundings)
    (orgId : String)
    (args : Fields)
    (hSame : AllWritten s) :
    AllWritten (attachClip s around orgId args).1 := by
  refine allWritten_withIncident hSame (fun _ => ?_)
  split
  · exact hSame
  · split
    · exact hSame
    · exact hSame
    · exact allWritten_insert hSame (.clip _ rfl rfl)

/- Each tool writes what is served, or nothing. -/
theorem written_call
    {s : Store}
    (tool : IncidentTool)
    (around : Surroundings)
    (orgId keyName : String)
    (args : Fields)
    (hSame : AllWritten s) :
    AllWritten (call tool s around orgId keyName args).1 := by
  cases tool with
  | getIncident =>
      exact allWritten_withIncident hSame (fun _ => hSame)
  | addObservation =>
      rw [call, addObservation]
      dsimp only
      cases observationRefusal (Mcp.reqStr args "text") with
      | some message => exact hSame
      | none =>
          refine allWritten_withIncident hSame (fun _ => ?_)
          split
          · exact hSame
          · exact allWritten_insert hSame (.empty rfl)
  | updateIncident =>
      rw [call, IncidentTools.updateIncident]
      split
      · exact hSame
      · refine allWritten_withIncident hSame (fun _ => ?_)
        dsimp only
        split
        · exact hSame
        · exact allWritten_withIncident hSame (fun _ => hSame)
  | finalizeIncident =>
      rw [call, finalizeIncident]
      split
      · exact hSame
      · refine allWritten_withIncident hSame (fun _ => ?_)
        split
        · exact hSame
        · exact allWritten_withIncident hSame (fun _ => hSame)
  | attachSnapshot =>
      refine allWritten_withIncident hSame (fun _ => ?_)
      split
      · exact hSame
      · exact allWritten_insert hSame (.snapshot rfl rfl)
  | attachClip => exact written_attachClip around orgId args hSame
  | getIncidentSnapshot => exact allWritten_withEvidence hSame
  | getIncidentClip => exact allWritten_withEvidence hSame

theorem written_step
    (s : Store)
    (event : Event)
    (hSame : AllWritten s) :
    AllWritten (step s event) := by
  cases event with
  | call tool around orgId keyName args =>
      exact written_call tool around orgId keyName args hSame
  | purge expired =>
      intro row hMem
      rw [step, List.mem_map] at hMem
      rcases hMem with ⟨old, hOld, rfl⟩
      rw [purgeRow]
      split_ifs
      · exact .empty rfl
      · exact hSame old hOld
  | elsewhere db kept =>
      intro row hMem
      exact hSame row (List.mem_of_mem_filter hMem)

/- Every row of a run has a type that a tool stored. -/
theorem written_exec
    {s : Store}
    (hNone : s.evidence = [])
    (events : List Event) :
    AllWritten (Run.exec step s events) := by
  refine Run.invariant_exec written_step events ?_
  intro row hMem
  rw [hNone] at hMem
  exact absurd hMem List.not_mem_nil

--------------------
-- The Two Readers
--------------------

/- The extensions of the media types. -/
def fileTypes : List (String × String) :=
  [("image/jpeg", "jpg"), ("image/png", "png"),
    ("video/mp2t", "ts"), ("video/mp4", "mp4")]

/-
  The archive has the bytes that the route serves, in a file
  with the extension of the type they are served as.
-/
def ArchivedAsServed (row : IncidentTools.Evidence) : Prop :=
  ∃ served data ext,
    getEvidenceBlob (some row) = .ok (served, data) ∧
      fileTypes.lookup served = some ext ∧
      evidenceFiles [row] =
        [(fileNamed row.toEvidenceRow ext, data)]

theorem fileNamed_inj
    {row : EvidenceRow}
    {first second : String}
    (hSame : fileNamed row first = fileNamed row second) :
    first = second := by
  rw [fileNamed, fileNamed] at hSame
  have hList := congrArg String.toList hSame
  simp only [String.toList_append] at hList
  exact String.toList_inj.mp (List.append_cancel_left hList)

theorem clipMime_toList (segmentCount : Nat) :
    ∃ parameters,
      (clipMime segmentCount).toList =
        "video/mp2t".toList ++ ';' :: parameters := by
  refine ⟨"duration=".toList ++
    (toString segmentCount).toList ++ ".0".toList, ?_⟩
  unfold clipMime
  rw [String.toList_append, String.toList_append]
  simp

theorem clipMime_ne
    (segmentCount : Nat)
    {mime : String}
    (hMime : ';' ∉ mime.toList) :
    clipMime segmentCount ≠ mime := by
  rintro rfl
  rcases clipMime_toList segmentCount with
    ⟨parameters, hList⟩
  rw [hList] at hMime
  exact hMime (List.mem_append_right _ List.mem_cons_self)

/- The parameter hides the type from the archive. -/
theorem extensionOf_clip (segmentCount : Nat) :
    extensionOf (clipMime segmentCount) = "bin" := by
  rw [extensionOf, if_neg (clipMime_ne _ (by simp)),
    if_neg (clipMime_ne _ (by simp)),
    if_neg (clipMime_ne _ (by simp)),
    if_neg (clipMime_ne _ (by simp))]

theorem lookup_fileTypes_ne
    {served ext : String}
    (hType : fileTypes.lookup served = some ext) :
    ext ≠ "bin" := by
  rintro rfl
  rcases List.lookup_eq_some_iff.mp hType with
    ⟨before, after, hSplit, _⟩
  have hMem : (served, "bin") ∈ fileTypes := by
    rw [hSplit]
    exact List.mem_append_right _ List.mem_cons_self
  simp [fileTypes] at hMem

theorem evidenceFiles_singleton
    {row : IncidentTools.Evidence}
    {mime : String}
    {data : List UInt8}
    (hData : row.data = some data)
    (hMime : row.dataMime = some mime) :
    evidenceFiles [row] =
      [(fileNamed row.toEvidenceRow (extensionOf mime),
        data)] := by
  have hRow :
      (evidencePath row.toEvidenceRow).bind (fun path =>
          row.data.map (fun data => (path, data))) =
        some (fileNamed row.toEvidenceRow (extensionOf mime),
          data) := by
    rw [evidencePath, hMime, hData]
    rfl
  simp only [evidenceFiles, List.filterMap_cons, hRow,
    List.filterMap_nil]

section Stored

variable
  {row : IncidentTools.Evidence}
  {byte : UInt8}
  {rest : List UInt8}

theorem archivedAsServed_snapshot
    (hData : row.data = some (byte :: rest))
    (hMime : row.dataMime = some "image/jpeg") :
    ArchivedAsServed row := by
  refine ⟨"image/jpeg", byte :: rest, "jpg", ?_, rfl, ?_⟩
  · rw [getEvidenceBlob, Option.bind_some, hData]
    dsimp only [Option.bind_some]
    rw [hMime]
    rfl
  · rw [evidenceFiles_singleton hData hMime, extensionOf,
      if_pos rfl]

theorem not_archivedAsServed_clip
    {segmentCount : Nat}
    (hData : row.data = some (byte :: rest))
    (hMime : row.dataMime = some (clipMime segmentCount)) :
    ¬ArchivedAsServed row := by
  rintro ⟨served, data, ext, _, hType, hFiles⟩
  rw [evidenceFiles_singleton hData hMime, extensionOf_clip,
    List.cons.injEq, Prod.mk.injEq] at hFiles
  exact lookup_fileTypes_ne hType
    (fileNamed_inj hFiles.1.1).symm

/-
  Of the rows that the tools stored, the snapshots are in the
  archive under the type they are served as, and no clip is.
-/
theorem archivedAsServed_iff
    {s : Store}
    (hNone : s.evidence = [])
    (events : List Event)
    (hRow : row ∈ (Run.exec step s events).evidence)
    (hData : row.data = some (byte :: rest)) :
    ArchivedAsServed row ↔ row.kind = "snapshot" := by
  cases written_exec hNone events row hRow with
  | empty hEmpty =>
      rw [hData] at hEmpty
      exact absurd hEmpty nofun
  | snapshot hKind hMime =>
      exact iff_of_true (archivedAsServed_snapshot hData hMime)
        hKind
  | clip segmentCount hKind hMime =>
      refine iff_of_false
        (not_archivedAsServed_clip hData hMime) ?_
      rw [hKind]
      decide

end Stored

--------------------
-- A Snapshot and a Clip
--------------------

def cameraAround : Surroundings where
  now := 10
  camera := fun _ => true
  captureBytes := fun _ => .ok [255, 216]
  snapshotRecent := fun _ _ => .segments [[71]]

def onGate : Fields :=
  [("incident_id", .integer 1), ("camera_id", .string "cam")]

def attached (tool : IncidentTool) : List Event :=
  [.call tool cameraAround "org" "agent" onGate]

def snapshotRow : IncidentTools.Evidence where
  id := 1
  incidentId := 1
  kind := "snapshot"
  text := none
  cameraId := some "cam"
  dataMime := some "image/jpeg"
  timestamp := some 10
  data := some [255, 216]

def clipRow : IncidentTools.Evidence where
  id := 1
  incidentId := 1
  kind := "clip"
  text := none
  cameraId := some "cam"
  dataMime := some (clipMime 1)
  timestamp := some 10
  data := some [71]

theorem archivedAsServed_iff_attached :
    snapshotRow ∈
        (Run.exec step oneIncident
          (attached .attachSnapshot)).evidence ∧
      (ArchivedAsServed snapshotRow ↔
        snapshotRow.kind = "snapshot") := by
  have hRow :
      snapshotRow ∈
        (Run.exec step oneIncident
          (attached .attachSnapshot)).evidence :=
    List.mem_singleton.mpr rfl
  exact ⟨hRow, archivedAsServed_iff rfl _ hRow rfl⟩

/- A clip of one segment is archived as `bin`. -/
theorem attached_clip_unknown :
    ¬ ∀ (s : Store) (events : List Event)
        (row : IncidentTools.Evidence)
        (byte : UInt8) (rest : List UInt8),
      s.evidence = [] →
        row ∈ (Run.exec step s events).evidence →
          row.data = some (byte :: rest) →
            ArchivedAsServed row := by
  intro hAll
  have hRow :
      clipRow ∈
        (Run.exec step oneIncident
          (attached .attachClip)).evidence :=
    List.mem_singleton.mpr rfl
  exact not_archivedAsServed_clip rfl rfl
    (hAll oneIncident _ clipRow 71 [] rfl hRow rfl)

end EvidenceTypes

end SentinelCommand
