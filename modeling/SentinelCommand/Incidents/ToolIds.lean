import SentinelCommand.Incidents.FinalReport
import SentinelCommand.Incidents.ToolUpdates

/-
  The eight MCP tools that take the id of an incident, and
  two of them the id of its evidence.

  The id is an `i64` of the arguments, and it is bound to the
  `integer` column `as i32`. An id beyond 32 bits is so the
  id of another row; the routes refuse it (`int4`).

  Main declarations:
    * `IncidentTools.call`
    * `IncidentTools.onlyNamed_iff`
    * `IncidentTools.wrapped_id_changes_first`
-/

--------------------
-- Rows
--------------------

namespace SentinelCommand

namespace IncidentTools

open Privacy

/- The columns of `incident_evidence` without the blob. -/
structure EvidenceRow where
  id : Int
  incidentId : Int
  kind : String
  text : Option String
  cameraId : Option String
  dataMime : Option String
  timestamp : Option Int
  deriving DecidableEq, Repr

structure Evidence extends EvidenceRow where
  data : Option (List UInt8)
  deriving DecidableEq, Repr

structure Store where
  db : Db
  evidence : List Evidence
  nextEvidence : Int
  deriving DecidableEq, Repr

/- `hls.snapshot_recent`. -/
inductive Snapshot where
  | noCamera
  | segments (chunks : List (List UInt8))
  deriving DecidableEq, Repr

/- What a call hears from the rest of the server. -/
structure Surroundings where
  now : Int
  camera : String → Bool
  captureBytes : String → Except String (List UInt8)
  snapshotRecent : String → Nat → Snapshot

/- A call that is refused. -/
inductive Refusal where
  | arguments (message : String)
  | incidentNotFound (incidentId : Int)
  | evidenceNotFound (evidenceId incidentId : Int)
  | later (message : String)
  deriving DecidableEq, Repr

def Refusal.message : Refusal → String
| .arguments message => message
| .incidentNotFound incidentId =>
    "Incident " ++ toString incidentId ++ " not found"
| .evidenceNotFound evidenceId incidentId =>
    "Evidence " ++ toString evidenceId ++
      " not found on incident " ++ toString incidentId
| .later message => message

/- The values an answer is rendered from. -/
inductive Answer where
  | incident (row : Incident) (evidenceCount : Nat)
  | incidentWithEvidence
      (row : Incident)
      (evidenceCount : Nat)
      (evidence : List EvidenceRow)
  | evidence (row : EvidenceRow)
  | attachedClip
      (row : EvidenceRow)
      (segmentCount bytes : Nat)
      (capped truncated : Bool)
  | image (data : List UInt8) (mime : String)
  | clip (row : EvidenceRow) (bytes : Nat)
  deriving DecidableEq, Repr

abbrev ToolResult : Type :=
  Store × Except Refusal Answer

--------------------
-- Statements
--------------------

/- `evidence_count` of the row as it is selected. -/
def evidenceCount (s : Store) (incidentId : Int) : Nat :=
  s.evidence.countP (·.incidentId = incidentId)

/- `ORDER BY timestamp NULLS LAST`. -/
def notLater (first second : Evidence) : Bool :=
  match first.timestamp, second.timestamp with
  | some one, some other => one ≤ other
  | some _, none => true
  | none, some _ => false
  | none, none => true

def evidenceFor (s : Store) (incidentId : Int) : List EvidenceRow :=
  ((s.evidence.filter
      (·.incidentId = asI32 incidentId)).mergeSort
    notLater).map Evidence.toEvidenceRow

/- `owned_incident`, and what follows when it finds a row. -/
def withIncident
    (s : Store)
    (orgId : String)
    (incidentId : Int)
    (found : Incident → ToolResult) : ToolResult :=
  match ownedIncident s.db orgId (asI32 incidentId) with
  | none => (s, .error (.incidentNotFound incidentId))
  | some row => found row

/- The incident is read once more for the answer. -/
def answerIncident
    (s : Store)
    (orgId : String)
    (incidentId : Int) : ToolResult :=
  withIncident s orgId incidentId fun row =>
    (s, .ok (.incident row (evidenceCount s row.id)))

def insertEvidence
    (s : Store)
    (incidentId : Int)
    (kind : String)
    (text cameraId : Option String)
    (data : Option (List UInt8))
    (mime : Option String)
    (now : Int) : Store × Evidence :=
  let row : Evidence :=
    { id := s.nextEvidence
      incidentId := asI32 incidentId
      kind := kind
      text := text
      cameraId := cameraId
      dataMime := mime
      timestamp := some now
      data := data }
  ({ s with
      evidence := s.evidence ++ [row]
      nextEvidence := s.nextEvidence + 1 },
    row)

def touchIncident
    (s : Store)
    (orgId : String)
    (incidentId now : Int) : Store :=
  { s with
    db := setIncident s.db (isIncident orgId (asI32 incidentId))
      (fun row => { row with updatedAt := now }) }

/- `WHERE id = $1 AND incident_id = $2`. -/
def evidenceOn
    (s : Store)
    (evidenceId incidentId : Int) : Option Evidence :=
  s.evidence.find?
    (fun row =>
      row.id == asI32 evidenceId &&
        row.incidentId == asI32 incidentId)

/-
  The two tools that read one piece of evidence: its
  incident is looked up first.
-/
def withEvidence
    (s : Store)
    (orgId : String)
    (evidenceId incidentId : Int)
    (found : Evidence → Except Refusal Answer) : ToolResult :=
  withIncident s orgId incidentId fun _ =>
    match evidenceOn s evidenceId incidentId with
    | none =>
        (s, .error (.evidenceNotFound evidenceId incidentId))
    | some row => (s, found row)

--------------------
-- Tools
--------------------

open Privacy Incidents Mcp

def maxObservationChars : Nat :=
  8000

def maxClipBytes : Nat :=
  32 * 1024 * 1024

def maxClipSeconds : Int :=
  30

/- An empty note is NULL, and a blank one an empty text. -/
def pythonNote (note : Option String) : Option String :=
  (note.filter (· ≠ "")).map trimText

/- The oldest chunks go first. -/
def trimToCap (maxBytes : Nat) :
    List (List UInt8) → List (List UInt8) × Bool
| [] => ([], false)
| chunk :: rest =>
    if ((chunk :: rest).map List.length).sum > maxBytes then
      ((trimToCap maxBytes rest).1, true)
    else
      (chunk :: rest, false)

def getIncident
    (s : Store)
    (orgId : String)
    (args : Fields) : ToolResult :=
  let incidentId := intOr args "incident_id" 0
  withIncident s orgId incidentId fun row =>
    (s,
      .ok (.incidentWithEvidence row (evidenceCount s row.id)
        (evidenceFor s incidentId)))

def observationRefusal (text : String) : Option String :=
  if trimText text = "" then
    some "text is required"
  else if text.length > maxObservationChars then
    some
      ("text too long (" ++ toString text.length ++
        " chars; max " ++ toString maxObservationChars ++ ").")
  else
    none

def addObservation
    (s : Store)
    (around : Surroundings)
    (orgId : String)
    (args : Fields) : ToolResult :=
  let incidentId := intOr args "incident_id" 0
  let text := reqStr args "text"
  let cameraId := optCameraId args
  match observationRefusal text with
  | some message => (s, .error (.arguments message))
  | none =>
    withIncident s orgId incidentId fun _ =>
      if cameraId.any (fun id => ! around.camera id) then
        (s,
          .error (.later
            ("Camera '" ++ cameraId.getD "" ++
              "' not found in this organization")))
      else
        let inserted :=
          insertEvidence s incidentId "observation"
            (some (trimText text)) cameraId none none
            around.now
        (touchIncident inserted.1 orgId incidentId around.now,
          .ok (.evidence inserted.2.toEvidenceRow))

def updateIncident
    (s : Store)
    (around : Surroundings)
    (orgId keyName : String)
    (args : Fields) : ToolResult :=
  let incidentId := intOr args "incident_id" 0
  match toolUpdateRefusal (updatePatch args) with
  | some message => (s, .error (.arguments message))
  | none =>
    withIncident s orgId incidentId fun _ =>
      let after :=
        Incidents.updateIncident s.db orgId keyName args
          around.now
      match after.2 with
      | some message =>
          ({ s with db := after.1 }, .error (.later message))
      | none =>
          answerIncident { s with db := after.1 } orgId
            incidentId

def finalizeIncident
    (s : Store)
    (around : Surroundings)
    (orgId : String)
    (args : Fields) : ToolResult :=
  let incidentId := intOr args "incident_id" 0
  let report := reqStr args "report"
  let request : ReportRequest :=
    .finalize orgId incidentId report
  match finalizeRefusal report with
  | some message => (s, .error (.arguments message))
  | none =>
    withIncident s orgId incidentId fun existing =>
      if existing.report.getD "" ≠ "" then
        (s, .error (.later request.alreadyReported))
      else
        answerIncident
          { s with
            db := runStatements s.db (asI32 incidentId)
              around.now [.set .report (trimText report)] }
          orgId incidentId

def attachSnapshot
    (s : Store)
    (around : Surroundings)
    (orgId : String)
    (args : Fields) : ToolResult :=
  let incidentId := intOr args "incident_id" 0
  let cameraId := reqStr args "camera_id"
  let note := optStr args "note"
  withIncident s orgId incidentId fun _ =>
    match around.captureBytes cameraId with
    | .error message => (s, .error (.later message))
    | .ok jpeg =>
        let inserted :=
          insertEvidence s incidentId "snapshot"
            (pythonNote note) (some cameraId) (some jpeg)
            (some "image/jpeg") around.now
        (touchIncident inserted.1 orgId incidentId around.now,
          .ok (.evidence inserted.2.toEvidenceRow))

/- The length of the clip, at one second a segment. -/
def clipMime (segmentCount : Nat) : String :=
  "video/mp2t;duration=" ++ toString segmentCount ++ ".0"

def attachClip
    (s : Store)
    (around : Surroundings)
    (orgId : String)
    (args : Fields) : ToolResult :=
  let incidentId := intOr args "incident_id" 0
  let cameraId := reqStr args "camera_id"
  let asked := intOr args "duration_seconds" 15
  let wanted := (max 2 (min asked maxClipSeconds)).toNat
  let note := optStr args "note"
  withIncident s orgId incidentId fun _ =>
    if around.camera cameraId = false then
      (s,
        .error (.later ("Camera '" ++ cameraId ++ "' not found")))
    else
      match around.snapshotRecent cameraId wanted with
      | .noCamera =>
          (s,
            .error (.later
              ("No buffered segments for camera '" ++
                cameraId ++ "'. The stream must be live (or " ++
                "have been live very recently) for " ++
                "attach_clip to work.")))
      | .segments [] =>
          (s,
            .error (.later
              ("Buffer entries for '" ++ cameraId ++
                "' were evicted before they could be read; " ++
                "try again.")))
      | .segments chunks =>
          let kept := trimToCap maxClipBytes chunks
          let blob := kept.1.flatten
          let inserted :=
            insertEvidence s incidentId "clip"
              (pythonNote note) (some cameraId) (some blob)
              (some (clipMime kept.1.length)) around.now
          -- The answer names the incident of the argument.
          (touchIncident inserted.1 orgId incidentId around.now,
            .ok (.attachedClip
              { inserted.2.toEvidenceRow with
                incidentId := incidentId }
              kept.1.length blob.length
              (decide (asked > maxClipSeconds)) kept.2))

/- The format an image block takes. -/
def imageFormat (mime : Option String) : String :=
  let lower := (mime.getD "image/jpeg").toLower
  if lower = "image/png" then "image/png"
  else if lower = "image/webp" then "image/webp"
  else "image/jpeg"

def getIncidentSnapshot
    (s : Store)
    (orgId : String)
    (args : Fields) : ToolResult :=
  let incidentId := intOr args "incident_id" 0
  let evidenceId := intOr args "evidence_id" 0
  withEvidence s orgId evidenceId incidentId fun row =>
    match row.data.filter (fun _ => row.kind = "snapshot") with
    | none =>
        .error (.later
          ("Evidence " ++ toString evidenceId ++
            " is not a snapshot with attached image data"))
    | some data =>
        .ok (.image data (imageFormat row.dataMime))

def getIncidentClip
    (s : Store)
    (orgId : String)
    (args : Fields) : ToolResult :=
  let incidentId := intOr args "incident_id" 0
  let evidenceId := intOr args "evidence_id" 0
  withEvidence s orgId evidenceId incidentId fun row =>
    if row.kind = "clip" ∧ row.data = none then
      .error (.later
        ("The video of clip " ++ toString evidenceId ++
          " on incident " ++ toString incidentId ++
          " has been removed: clip video is kept for the " ++
          "organization's log retention period. The " ++
          "incident, the clip's caption and its other " ++
          "evidence remain."))
    else
      match row.data.filter (fun _ => row.kind = "clip") with
      | none =>
          .error (.later
            ("Evidence " ++ toString evidenceId ++
              " is not a clip with attached video data"))
      | some data =>
          -- The ids of the answer are those of the arguments.
          .ok (.clip
            { row.toEvidenceRow with
              id := evidenceId
              incidentId := incidentId }
            data.length)

inductive IncidentTool where
  | getIncident
  | addObservation
  | updateIncident
  | finalizeIncident
  | attachSnapshot
  | attachClip
  | getIncidentSnapshot
  | getIncidentClip
  deriving DecidableEq, Repr

/- What a tool leaves, and what it answers. -/
def call
    (tool : IncidentTool)
    (s : Store)
    (around : Surroundings)
    (orgId keyName : String)
    (args : Fields) : ToolResult :=
  match tool with
  | .getIncident => getIncident s orgId args
  | .addObservation => addObservation s around orgId args
  | .updateIncident =>
      updateIncident s around orgId keyName args
  | .finalizeIncident => finalizeIncident s around orgId args
  | .attachSnapshot => attachSnapshot s around orgId args
  | .attachClip => attachClip s around orgId args
  | .getIncidentSnapshot => getIncidentSnapshot s orgId args
  | .getIncidentClip => getIncidentClip s orgId args

--------------------
-- Named Rows
--------------------

def IncidentTool.incidentId (args : Fields) : Int :=
  intOr args "incident_id" 0

/- The evidence that a call names, if the tool takes one. -/
def IncidentTool.evidenceId
    (args : Fields) : IncidentTool → Option Int
| .getIncidentSnapshot => some (intOr args "evidence_id" 0)
| .getIncidentClip => some (intOr args "evidence_id" 0)
| _ => none

/- What a tool refuses before it looks at any row. -/
def IncidentTool.refusal
    (args : Fields) : IncidentTool → Option String
| .addObservation => observationRefusal (reqStr args "text")
| .updateIncident => toolUpdateRefusal (updatePatch args)
| .finalizeIncident => finalizeRefusal (reqStr args "report")
| _ => none

/- The rows with the ids, compared as integers. -/
def Store.named
    (s : Store)
    (incidentId : Int)
    (evidenceId : Option Int) : Store :=
  { s with
    db :=
      { s.db with
        incidents :=
          s.db.incidents.filter (·.id = incidentId) }
    evidence :=
      s.evidence.filter fun row =>
        row.incidentId = incidentId ∧
          ∀ id ∈ evidenceId, row.id = id }

/- No row of the org has the id that a call names. -/
def Missing
    (tool : IncidentTool)
    (s : Store)
    (orgId : String)
    (args : Fields) : Prop :=
  ownedIncident s.db orgId (IncidentTool.incidentId args) =
      none ∨
    ∃ evidenceId, tool.evidenceId args = some evidenceId ∧
      ∀ row ∈ s.evidence,
        row.incidentId = IncidentTool.incidentId args →
          row.id ≠ evidenceId

def SaysNotFound
    (tool : IncidentTool)
    (args : Fields)
    (refusal : Refusal) : Prop :=
  refusal =
      .incidentNotFound (IncidentTool.incidentId args) ∨
    ∃ evidenceId, tool.evidenceId args = some evidenceId ∧
      refusal =
        .evidenceNotFound evidenceId
          (IncidentTool.incidentId args)

/-
  A result that has to do with the incident of an id alone:
  the answer is the one that its own rows give, and the rows
  of other incidents are as they were.
-/
structure OnOneIncident
    (incidentId : Int)
    (s : Store)
    (result alone : ToolResult) : Prop where
  reads : alone.2 = result.2
  incidents :
    result.1.db.incidents.filter (·.id ≠ incidentId) =
      s.db.incidents.filter (·.id ≠ incidentId)
  evidence :
    ∃ added, result.1.evidence = s.evidence ++ added ∧
      ∀ row ∈ added, row.incidentId = incidentId
  tables :
    { result.1.db with incidents := [] } =
      { s.db with incidents := [] }

/-
  A call reads and writes the rows with the ids it was given
  and no others, and says not found when they are missing.
-/
structure OnlyNamed
    (tool : IncidentTool)
    (s : Store)
    (around : Surroundings)
    (orgId keyName : String)
    (args : Fields) : Prop where
  rows :
    OnOneIncident (IncidentTool.incidentId args) s
      (call tool s around orgId keyName args)
      (call tool
        (s.named (IncidentTool.incidentId args)
          (tool.evidenceId args))
        around orgId keyName args)
  notFound :
    tool.refusal args = none → Missing tool s orgId args →
      ∃ refusal, SaysNotFound tool args refusal ∧
        call tool s around orgId keyName args =
          (s, .error refusal)

/- `i32::try_from` gives the number. -/
def Fits (n : Int) : Prop :=
  -2147483648 ≤ n ∧ n ≤ 2147483647

/-
  The arguments pass the first checks and an id of 64 bits
  wraps round to one that the org has a row for.
-/
def Aliased
    (tool : IncidentTool)
    (s : Store)
    (orgId : String)
    (args : Fields) : Prop :=
  tool.refusal args = none ∧
    ownedIncident s.db orgId
        (asI32 (IncidentTool.incidentId args)) ≠
      none ∧
    (¬ Fits (IncidentTool.incidentId args) ∨
      ∃ evidenceId, tool.evidenceId args = some evidenceId ∧
        ¬ Fits evidenceId ∧
          evidenceOn s evidenceId
              (IncidentTool.incidentId args) ≠
            none)

variable {s : Store}
variable {orgId : String}
variable {incidentId evidenceId : Int}

theorem asI32_eq_iff (n : Int) : asI32 n = n ↔ Fits n := by
  simp only [asI32, Fits, Int.bmod_def]
  split
  · omega
  · omega

theorem ownedIncident_named
    (s : Store)
    (orgId : String)
    (incidentId : Int)
    (evidence : Option Int) :
    ownedIncident (s.named incidentId evidence).db orgId
        incidentId =
      ownedIncident s.db orgId incidentId := by
  unfold ownedIncident Store.named
  rw [List.find?_filter]
  congr 1
  funext row
  by_cases hId : row.id = incidentId
  · simp [isIncident, hId, beq_eq_decide]
  · simp [isIncident, hId]

theorem ownedIncident_named_of_ne
    {other : Int}
    (hNe : other ≠ incidentId)
    (evidence : Option Int) :
    ownedIncident (s.named incidentId evidence).db orgId
        other =
      none := by
  unfold ownedIncident Store.named
  apply List.find?_eq_none.mpr
  intro row hRow
  have hId : row.id = incidentId := by
    simpa using (List.mem_filter.mp hRow).2
  simp [isIncident, hId, hNe.symm]

theorem evidenceCount_named :
    evidenceCount (s.named incidentId none) incidentId =
      evidenceCount s incidentId := by
  simp [evidenceCount, Store.named, List.countP_filter]

theorem evidenceFor_named
    (hFits : asI32 incidentId = incidentId) :
    evidenceFor (s.named incidentId none) incidentId =
      evidenceFor s incidentId := by
  simp [evidenceFor, Store.named, hFits, List.filter_filter]

theorem evidenceOn_named
    (hFits : asI32 incidentId = incidentId)
    (hEvidence : asI32 evidenceId = evidenceId) :
    evidenceOn (s.named incidentId (some evidenceId))
        evidenceId incidentId =
      evidenceOn s evidenceId incidentId := by
  unfold evidenceOn Store.named
  rw [List.find?_filter, hFits, hEvidence]
  congr 1
  funext row
  by_cases hId : row.id = evidenceId
  · by_cases hOn : row.incidentId = incidentId
    · simp [hId, hOn]
    · simp [hId, hOn]
  · simp [hId]

/- Evidence with another id is not among the named rows. -/
theorem evidenceOn_named_of_ne
    (hNe : asI32 evidenceId ≠ evidenceId) :
    evidenceOn (s.named incidentId (some evidenceId))
        evidenceId incidentId =
      none := by
  unfold evidenceOn Store.named
  apply List.find?_eq_none.mpr
  intro row hRow
  have hNamed := (List.mem_filter.mp hRow).2
  have hId : row.id = evidenceId :=
    (of_decide_eq_true hNamed).2 evidenceId rfl
  simp [hId, hNe.symm]

--------------------
-- Results on One Incident
--------------------

variable {around : Surroundings}
variable {orgId keyName : String}
variable {args : Fields}
variable {incidentId : Int}
variable {found : Incident}

theorem onOneIncident_same
    (alone : Store)
    (answer : Except Refusal Answer) :
    OnOneIncident incidentId s (s, answer)
      (alone, answer) where
  reads := rfl
  incidents := rfl
  evidence := ⟨[], (List.append_nil _).symm,
      List.forall_mem_nil _⟩
  tables := rfl

/- An UPDATE that hits one id leaves the other rows. -/
theorem filter_setIncident
    {db : Db}
    {hit : Incident → Bool}
    {f : Incident → Incident}
    (hHit : ∀ row, hit row = true → row.id = incidentId)
    (hKeeps : ∀ row, (f row).id = row.id) :
    (setIncident db hit f).incidents.filter
        (·.id ≠ incidentId) =
      db.incidents.filter (·.id ≠ incidentId) := by
  unfold setIncident
  induction db.incidents with
  | nil => rfl
  | cons row rest ih =>
      simp only [List.map_cons, List.filter_cons, ih]
      by_cases hRow : hit row = true
      · simp [hRow, hKeeps, hHit row hRow]
      · simp [hRow]

theorem filter_runStatements
    (db : Db)
    (now : Int)
    (statements : List Statement) :
    (runStatements db incidentId now statements).incidents.filter
        (·.id ≠ incidentId) =
      db.incidents.filter (·.id ≠ incidentId) :=
  filter_setIncident (fun _ hRow => by simpa using hRow)
    (applyAll_id statements)

theorem onOneIncident_withIncident
    (hFits : asI32 incidentId = incidentId)
    {evidence : Option Int}
    {result alone : Incident → ToolResult}
    (hResult :
      ∀ found, ownedIncident s.db orgId incidentId = some found →
        OnOneIncident incidentId s (result found)
          (alone found)) :
    OnOneIncident incidentId s
      (withIncident s orgId incidentId result)
      (withIncident (s.named incidentId evidence) orgId
        incidentId alone) := by
  unfold withIncident
  rw [hFits, ownedIncident_named]
  cases hFound : ownedIncident s.db orgId incidentId with
  | none => exact onOneIncident_same _ _
  | some found => exact hResult found hFound

/- Evidence is added to the incident, which is touched. -/
theorem onOneIncident_insert
    (hFits : asI32 incidentId = incidentId)
    {evidence : Option Int}
    (kind : String)
    (text cameraId : Option String)
    (data : Option (List UInt8))
    (mime : Option String)
    (now : Int)
    (answer : Evidence → Answer) :
    let insert (s : Store) : ToolResult :=
      let inserted :=
        insertEvidence s incidentId kind text cameraId data
          mime now
      (touchIncident inserted.1 orgId incidentId now,
        .ok (answer inserted.2))
    OnOneIncident incidentId s (insert s)
      (insert (s.named incidentId evidence)) where
  reads := rfl
  incidents := by
    apply filter_setIncident
    · intro row hRow
      rw [hFits, isIncident, Bool.and_eq_true, beq_iff_eq]
        at hRow
      exact hRow.1
    · exact fun _ => rfl
  evidence := by
    refine ⟨[_], rfl, ?_⟩
    intro row hRow
    rw [List.mem_singleton.mp hRow]
    exact hFits
  tables := rfl

/- The incident as an UPDATE of it leaves it is answered. -/
theorem answerIncident_ran
    (hFound :
      ownedIncident s.db orgId (asI32 incidentId) =
        some found)
    (now : Int)
    (statements : List Statement) :
    answerIncident
        { s with
          db :=
            runStatements s.db (asI32 incidentId) now
              statements }
        orgId incidentId =
      ({ s with
          db :=
            runStatements s.db (asI32 incidentId) now
              statements },
        .ok (.incident (applyAll now statements found)
          (evidenceCount s (asI32 incidentId)))) := by
  have hId :
      (applyAll now statements found).id = asI32 incidentId :=
    (applyAll_id statements found).trans
      (mem_of_ownedIncident hFound).2.1
  simp only [answerIncident, withIncident,
    ownedIncident_ran hFound, hId]
  rfl

/- What an UPDATE of the incident leaves, whatever it says. -/
theorem onOneIncident_ran
    {alone : Store}
    {now : Int}
    {statements : List Statement}
    {answer other : Except Refusal Answer}
    (hAnswer : other = answer) :
    OnOneIncident incidentId s
      ({ s with
          db := runStatements s.db incidentId now statements },
        answer)
      (alone, other) where
  reads := hAnswer
  incidents := filter_runStatements s.db now statements
  evidence := ⟨[], (List.append_nil _).symm,
      List.forall_mem_nil _⟩
  tables := rfl

--------------------
-- Each Tool on the Rows It Names
--------------------

theorem rows_getIncident
    (hFits : asI32 (intOr args "incident_id" 0) =
      intOr args "incident_id" 0) :
    OnOneIncident (intOr args "incident_id" 0) s
      (getIncident s orgId args)
      (getIncident (s.named (intOr args "incident_id" 0) none)
        orgId args) := by
  apply onOneIncident_withIncident hFits
  intro found hFound
  have hId : found.id = intOr args "incident_id" 0 :=
    (mem_of_ownedIncident hFound).2.1
  rw [hId, evidenceCount_named, evidenceFor_named hFits]
  exact onOneIncident_same _ _

theorem rows_addObservation
    (hFits : asI32 (intOr args "incident_id" 0) =
      intOr args "incident_id" 0) :
    OnOneIncident (intOr args "incident_id" 0) s
      (addObservation s around orgId args)
      (addObservation
        (s.named (intOr args "incident_id" 0) none) around
        orgId args) := by
  simp only [addObservation]
  cases observationRefusal (reqStr args "text") with
  | some message => exact onOneIncident_same _ _
  | none =>
      apply onOneIncident_withIncident hFits
      intro found _
      split
      · exact onOneIncident_same _ _
      · exact
          onOneIncident_insert hFits _ _ _ _ _ _
            (fun row => .evidence row.toEvidenceRow)

/- The named rows have the incident when the tables do. -/
theorem ownedIncident_alone
    {incidentId : Int}
    {found : Incident}
    (hFits : asI32 incidentId = incidentId)
    (hFound :
      ownedIncident s.db orgId (asI32 incidentId) =
        some found) :
    ownedIncident (s.named incidentId none).db orgId
        (asI32 incidentId) =
      some found := by
  rw [hFits, ownedIncident_named, ← hFits, hFound]

theorem rows_updateIncident
    (hFits : asI32 (intOr args "incident_id" 0) =
      intOr args "incident_id" 0) :
    OnOneIncident (intOr args "incident_id" 0) s
      (updateIncident s around orgId keyName args)
      (updateIncident
        (s.named (intOr args "incident_id" 0) none) around
        orgId keyName args) := by
  unfold updateIncident
  cases hRefusal : toolUpdateRefusal (updatePatch args) with
  | some message => exact onOneIncident_same _ _
  | none =>
      apply onOneIncident_withIncident hFits
      intro found hFound
      rw [← hFits] at hFound
      have hAlone := ownedIncident_alone hFits hFound
      simp only [updateIncident_found hRefusal hFound,
        updateIncident_found hRefusal hAlone]
      cases (toolPlan keyName found (updatePatch args)).2 with
      | some message =>
          rw [hFits]
          exact onOneIncident_ran rfl
      | none =>
          simp only [answerIncident_ran hFound,
            answerIncident_ran hAlone]
          rw [hFits, evidenceCount_named]
          exact onOneIncident_ran rfl

theorem rows_finalizeIncident
    (hFits : asI32 (intOr args "incident_id" 0) =
      intOr args "incident_id" 0) :
    OnOneIncident (intOr args "incident_id" 0) s
      (finalizeIncident s around orgId args)
      (finalizeIncident
        (s.named (intOr args "incident_id" 0) none) around
        orgId args) := by
  simp only [finalizeIncident]
  cases finalizeRefusal (reqStr args "report") with
  | some message => exact onOneIncident_same _ _
  | none =>
      apply onOneIncident_withIncident hFits
      intro found hFound
      rw [← hFits] at hFound
      have hAlone := ownedIncident_alone hFits hFound
      split
      · exact onOneIncident_same _ _
      · rw [answerIncident_ran hFound,
          answerIncident_ran hAlone, hFits,
          evidenceCount_named]
        exact onOneIncident_ran rfl

theorem rows_attachSnapshot
    (hFits : asI32 (intOr args "incident_id" 0) =
      intOr args "incident_id" 0) :
    OnOneIncident (intOr args "incident_id" 0) s
      (attachSnapshot s around orgId args)
      (attachSnapshot
        (s.named (intOr args "incident_id" 0) none) around
        orgId args) := by
  apply onOneIncident_withIncident hFits
  intro found _
  cases around.captureBytes (reqStr args "camera_id") with
  | error message => exact onOneIncident_same _ _
  | ok jpeg =>
      exact
        onOneIncident_insert hFits _ _ _ _ _ _
          (fun row => .evidence row.toEvidenceRow)

theorem rows_attachClip
    (hFits : asI32 (intOr args "incident_id" 0) =
      intOr args "incident_id" 0) :
    OnOneIncident (intOr args "incident_id" 0) s
      (attachClip s around orgId args)
      (attachClip
        (s.named (intOr args "incident_id" 0) none) around
        orgId args) := by
  apply onOneIncident_withIncident hFits
  intro found _
  split
  · exact onOneIncident_same _ _
  · split
    · exact onOneIncident_same _ _
    · exact onOneIncident_same _ _
    · rename_i chunks _ _
      exact
        onOneIncident_insert hFits _ _ _ _ _ _
          (fun row =>
            .attachedClip
              { row.toEvidenceRow with
                incidentId := intOr args "incident_id" 0 }
              (trimToCap maxClipBytes chunks).1.length
              (trimToCap maxClipBytes chunks).1.flatten.length
              _ (trimToCap maxClipBytes chunks).2)

/- The evidence that is not named is not there to be found. -/
def FoundAsNamed
    (s : Store)
    (evidenceId incidentId : Int) : Prop :=
  asI32 evidenceId = evidenceId ∨
    evidenceOn s evidenceId incidentId = none

theorem rows_withEvidence
    {evidenceId incidentId : Int}
    (hFits : asI32 incidentId = incidentId)
    (hEvidence : FoundAsNamed s evidenceId incidentId)
    (answer : Evidence → Except Refusal Answer) :
    OnOneIncident incidentId s
      (withEvidence s orgId evidenceId incidentId answer)
      (withEvidence (s.named incidentId (some evidenceId))
        orgId evidenceId incidentId answer) := by
  apply onOneIncident_withIncident hFits
  intro found _
  have hSame :
      evidenceOn (s.named incidentId (some evidenceId))
          evidenceId incidentId =
        evidenceOn s evidenceId incidentId := by
    by_cases hId : asI32 evidenceId = evidenceId
    · exact evidenceOn_named hFits hId
    · rw [evidenceOn_named_of_ne hId,
        hEvidence.resolve_left hId]
  rw [hSame]
  cases evidenceOn s evidenceId incidentId with
  | none => exact onOneIncident_same _ _
  | some row => exact onOneIncident_same _ _

/- An id that fits is the id of its own rows only. -/
theorem rows_call
    (tool : IncidentTool)
    (hFits : asI32 (IncidentTool.incidentId args) =
      IncidentTool.incidentId args)
    (hEvidence :
      ∀ evidenceId, tool.evidenceId args = some evidenceId →
        FoundAsNamed s evidenceId
          (IncidentTool.incidentId args)) :
    OnOneIncident (IncidentTool.incidentId args) s
      (call tool s around orgId keyName args)
      (call tool
        (s.named (IncidentTool.incidentId args)
          (tool.evidenceId args))
        around orgId keyName args) := by
  unfold IncidentTool.incidentId at hFits hEvidence ⊢
  unfold call
  cases tool with
  | getIncident => exact rows_getIncident hFits
  | addObservation => exact rows_addObservation hFits
  | updateIncident => exact rows_updateIncident hFits
  | finalizeIncident => exact rows_finalizeIncident hFits
  | attachSnapshot => exact rows_attachSnapshot hFits
  | attachClip => exact rows_attachClip hFits
  | getIncidentSnapshot =>
      exact rows_withEvidence hFits (hEvidence _ rfl) _
  | getIncidentClip =>
      exact rows_withEvidence hFits (hEvidence _ rfl) _

--------------------
-- Refusals
--------------------

variable {tool : IncidentTool}

/- The arguments alone are refused. -/
theorem call_refused
    {message : String}
    (hRefusal : tool.refusal args = some message)
    (s : Store) :
    call tool s around orgId keyName args =
      (s, .error (.arguments message)) := by
  cases tool with
  | addObservation =>
      simp only [IncidentTool.refusal] at hRefusal
      simp only [call, addObservation, hRefusal]
  | updateIncident =>
      simp only [IncidentTool.refusal] at hRefusal
      simp only [call, updateIncident, hRefusal]
  | finalizeIncident =>
      simp only [IncidentTool.refusal] at hRefusal
      simp only [call, finalizeIncident, hRefusal]
  | _ => cases hRefusal

/- The incident that the narrowed id names is not there. -/
theorem call_missing
    (hRefusal : tool.refusal args = none)
    (hNone :
      ownedIncident s.db orgId
          (asI32 (IncidentTool.incidentId args)) =
        none) :
    call tool s around orgId keyName args =
      (s,
        .error
          (.incidentNotFound (IncidentTool.incidentId args))) := by
  simp only [IncidentTool.incidentId] at hNone ⊢
  cases tool with
  | addObservation =>
      simp only [IncidentTool.refusal] at hRefusal
      simp only [call, addObservation, hRefusal, withIncident,
        hNone]
  | updateIncident =>
      simp only [IncidentTool.refusal] at hRefusal
      simp only [call, updateIncident, hRefusal, withIncident,
        hNone]
  | finalizeIncident =>
      simp only [IncidentTool.refusal] at hRefusal
      simp only [call, finalizeIncident, hRefusal,
        withIncident, hNone]
  | getIncident =>
      simp only [call, getIncident, withIncident, hNone]
  | attachSnapshot =>
      simp only [call, attachSnapshot, withIncident, hNone]
  | attachClip =>
      simp only [call, attachClip, withIncident, hNone]
  | getIncidentSnapshot =>
      simp only [call, getIncidentSnapshot, withEvidence,
        withIncident, hNone]
  | getIncidentClip =>
      simp only [call, getIncidentClip, withEvidence,
        withIncident, hNone]

/- A tool of evidence that has found its incident. -/
theorem withEvidence_found
    {evidenceId incidentId : Int}
    {answer : Evidence → Except Refusal Answer}
    (hFound :
      ownedIncident s.db orgId (asI32 incidentId) = some found)
    (hLater :
      ∀ row,
        answer row ≠ .error (.incidentNotFound incidentId)) :
    (withEvidence s orgId evidenceId incidentId answer).2 ≠
      .error (.incidentNotFound incidentId) := by
  simp only [withEvidence, withIncident, hFound]
  split
  · exact nofun
  · exact hLater _

/- The evidence is not there, or it is looked into. -/
theorem withEvidence_evidence
    {evidenceId incidentId : Int}
    {answer : Evidence → Except Refusal Answer}
    (hFound :
      ownedIncident s.db orgId (asI32 incidentId) = some found)
    (hLater :
      ∀ row,
        answer row ≠
          .error (.evidenceNotFound evidenceId incidentId)) :
    (evidenceOn s evidenceId incidentId = none →
        withEvidence s orgId evidenceId incidentId answer =
          (s,
            .error (.evidenceNotFound evidenceId incidentId))) ∧
      (evidenceOn s evidenceId incidentId ≠ none →
        (withEvidence s orgId evidenceId incidentId answer).2 ≠
          .error (.evidenceNotFound evidenceId incidentId)) := by
  simp only [withEvidence, withIncident, hFound]
  cases hOn : evidenceOn s evidenceId incidentId with
  | none => exact ⟨fun _ => rfl, fun hSome => absurd rfl hSome⟩
  | some row => exact ⟨nofun, fun _ => hLater row⟩

/- A tool that has found an incident does not lose it. -/
theorem call_found
    (hRefusal : tool.refusal args = none)
    (hFound :
      ownedIncident s.db orgId
          (asI32 (IncidentTool.incidentId args)) =
        some found) :
    (call tool s around orgId keyName args).2 ≠
      .error
        (.incidentNotFound (IncidentTool.incidentId args)) := by
  simp only [IncidentTool.incidentId] at hFound ⊢
  cases tool with
  | getIncident =>
      simp only [call, getIncident, withIncident, hFound]
      exact nofun
  | addObservation =>
      simp only [IncidentTool.refusal] at hRefusal
      simp only [call, addObservation, hRefusal, withIncident,
        hFound]
      split
      · exact nofun
      · exact nofun
  | updateIncident =>
      simp only [IncidentTool.refusal] at hRefusal
      simp only [call, updateIncident, hRefusal, withIncident,
        hFound, updateIncident_found hRefusal hFound]
      split
      · exact nofun
      · rw [answerIncident_ran hFound]
        exact nofun
  | finalizeIncident =>
      simp only [IncidentTool.refusal] at hRefusal
      simp only [call, finalizeIncident, hRefusal,
        withIncident, hFound]
      split
      · exact nofun
      · rw [answerIncident_ran hFound]
        exact nofun
  | attachSnapshot =>
      simp only [call, attachSnapshot, withIncident, hFound]
      split
      · exact nofun
      · exact nofun
  | attachClip =>
      simp only [call, attachClip, withIncident, hFound]
      split
      · exact nofun
      · split
        · exact nofun
        · exact nofun
        · exact nofun
  | getIncidentSnapshot =>
      apply withEvidence_found hFound
      intro row
      split
      · exact nofun
      · exact nofun
  | getIncidentClip =>
      apply withEvidence_found hFound
      intro row
      split
      · exact nofun
      · split
        · exact nofun
        · exact nofun

/- The evidence is not there, or the tool has found it. -/
theorem call_evidence
    {evidenceId : Int}
    (hEvidenceId : tool.evidenceId args = some evidenceId)
    (hFound :
      ownedIncident s.db orgId
          (asI32 (IncidentTool.incidentId args)) =
        some found) :
    (evidenceOn s evidenceId (IncidentTool.incidentId args) =
          none →
        call tool s around orgId keyName args =
          (s,
            .error
              (.evidenceNotFound evidenceId
                (IncidentTool.incidentId args)))) ∧
      (evidenceOn s evidenceId
            (IncidentTool.incidentId args) ≠
          none →
        (call tool s around orgId keyName args).2 ≠
          .error
            (.evidenceNotFound evidenceId
              (IncidentTool.incidentId args))) := by
  simp only [IncidentTool.incidentId] at hFound ⊢
  cases tool with
  | getIncidentSnapshot =>
      cases hEvidenceId
      apply withEvidence_evidence hFound
      intro row
      split
      · exact nofun
      · exact nofun
  | getIncidentClip =>
      cases hEvidenceId
      apply withEvidence_evidence hFound
      intro row
      split
      · exact nofun
      · split
        · exact nofun
        · exact nofun
  | _ => cases hEvidenceId

--------------------
-- When Only Named Rows Are Touched
--------------------

/- An incident that is not found is not among its rows. -/
theorem ownedIncident_named_none
    {incidentId : Int}
    {evidence : Option Int}
    (hNone :
      ownedIncident s.db orgId (asI32 incidentId) = none) :
    ownedIncident (s.named incidentId evidence).db orgId
        (asI32 incidentId) =
      none := by
  by_cases hFits : asI32 incidentId = incidentId
  · rw [hFits, ownedIncident_named, ← hFits, hNone]
  · exact ownedIncident_named_of_ne hFits evidence

/- No row is on the incident of the argument. -/
theorem evidenceOn_eq_none
    {evidenceId incidentId : Int}
    (hFits : asI32 incidentId = incidentId)
    (hEvidence : FoundAsNamed s evidenceId incidentId)
    (hMissing :
      ∀ row ∈ s.evidence,
        row.incidentId = incidentId → row.id ≠ evidenceId) :
    evidenceOn s evidenceId incidentId = none := by
  rcases hEvidence with hId | hNone
  · apply List.find?_eq_none.mpr
    intro row hRow
    rw [hId, hFits, Bool.and_eq_true, beq_iff_eq, beq_iff_eq]
    rintro ⟨hSame, hOn⟩
    exact hMissing row hRow hOn hSame
  · exact hNone

theorem onlyNamed_of_fits
    (hFits : asI32 (IncidentTool.incidentId args) =
      IncidentTool.incidentId args)
    (hEvidence :
      ∀ evidenceId, tool.evidenceId args = some evidenceId →
        FoundAsNamed s evidenceId
          (IncidentTool.incidentId args))
    {found : Incident}
    (hFound :
      ownedIncident s.db orgId
          (asI32 (IncidentTool.incidentId args)) =
        some found) :
    OnlyNamed tool s around orgId keyName args where
  rows := rows_call tool hFits hEvidence
  notFound := by
    rintro - (hNone | ⟨evidenceId, hId, hMissing⟩)
    · rw [hFits, hNone] at hFound
      cases hFound
    · have hNone :=
        evidenceOn_eq_none hFits (hEvidence evidenceId hId)
          hMissing
      exact
        ⟨_, Or.inr ⟨evidenceId, hId, rfl⟩,
          (call_evidence hId hFound).1 hNone⟩

theorem onlyNamed_of_not_aliased
    (hAliased : ¬ Aliased tool s orgId args) :
    OnlyNamed tool s around orgId keyName args := by
  cases hRefusal : tool.refusal args with
  | some message =>
      refine ⟨?_, ?_⟩
      · rw [call_refused hRefusal, call_refused hRefusal]
        exact onOneIncident_same _ _
      · intro hNone
        rw [hRefusal] at hNone
        cases hNone
  | none =>
      cases hFound :
          ownedIncident s.db orgId
            (asI32 (IncidentTool.incidentId args)) with
      | none =>
          refine ⟨?_, fun _ _ => ?_⟩
          · rw [call_missing hRefusal hFound,
              call_missing hRefusal
                (ownedIncident_named_none hFound)]
            exact onOneIncident_same _ _
          · exact
              ⟨_, Or.inl rfl, call_missing hRefusal hFound⟩
      | some found =>
          have hSome :
              ownedIncident s.db orgId
                  (asI32 (IncidentTool.incidentId args)) ≠
                none := by
            rw [hFound]
            exact nofun
          have hIds :=
            not_or.mp
              (fun hIds => hAliased ⟨hRefusal, hSome, hIds⟩)
          have hFits :=
            (asI32_eq_iff _).mpr (not_not.mp hIds.1)
          apply onlyNamed_of_fits hFits _ hFound
          intro evidenceId hId
          by_contra hOther
          rw [FoundAsNamed, not_or, asI32_eq_iff] at hOther
          exact
            hIds.2 ⟨evidenceId, hId, hOther.1, hOther.2⟩

theorem not_onlyNamed_of_aliased
    (hAliased : Aliased tool s orgId args) :
    ¬ OnlyNamed tool s around orgId keyName args := by
  rintro ⟨hRows, -⟩
  rcases hAliased with ⟨hRefusal, hSome, hIds⟩
  rcases Option.ne_none_iff_exists'.mp hSome with
    ⟨found, hFound⟩
  have hReads := hRows.reads
  by_cases hFits : Fits (IncidentTool.incidentId args)
  · rcases hIds with hNot | ⟨evidenceId, hId, hWraps, hOn⟩
    · exact hNot hFits
    · rw [← asI32_eq_iff] at hFits hWraps
      have hAlone :
          ownedIncident
              (s.named (IncidentTool.incidentId args)
                (tool.evidenceId args)).db
              orgId (asI32 (IncidentTool.incidentId args)) =
            some found := by
        rw [hFits, ownedIncident_named, ← hFits, hFound]
      rw [hId] at hReads hAlone
      rw [(call_evidence hId hAlone).1
        (evidenceOn_named_of_ne hWraps)] at hReads
      exact (call_evidence hId hFound).2 hOn hReads.symm
  · rw [← asI32_eq_iff] at hFits
    rw [call_missing hRefusal
      (ownedIncident_named_of_ne hFits _)] at hReads
    exact call_found hRefusal hFound hReads.symm

/-
  A tool touches the rows with the ids it was given and no
  others exactly when no id wraps round to that of a row the
  org has.
-/
theorem onlyNamed_iff
    (tool : IncidentTool)
    (s : Store)
    (around : Surroundings)
    (orgId keyName : String)
    (args : Fields) :
    OnlyNamed tool s around orgId keyName args ↔
      ¬ Aliased tool s orgId args :=
  ⟨fun hNamed hAliased =>
      not_onlyNamed_of_aliased hAliased hNamed,
    onlyNamed_of_not_aliased⟩

/- An id of 33 bits whose low half is the id 1. -/
def pastRange : Fields :=
  [("incident_id", .integer 4294967297),
    ("severity", .string "high")]

def oneIncident : Store where
  db := { Db.empty with incidents := [gate] }
  evidence := []
  nextEvidence := 1

def nothingAround : Surroundings where
  now := 10
  camera := fun _ => false
  captureBytes := fun _ => .error "offline"
  snapshotRecent := fun _ _ => .noCamera

/- No incident has the id, and incident 1 is changed. -/
theorem wrapped_id_changes_first :
    ¬ ∀ (tool : IncidentTool) (s : Store)
        (around : Surroundings) (orgId keyName : String)
        (args : Fields),
      ownedIncident s.db orgId
          (IncidentTool.incidentId args) =
        none →
        (call tool s around orgId keyName args).1 = s := by
  intro hAll
  have hSame :=
    hAll .updateIncident oneIncident nothingAround "org" "agent"
      pastRange (by decide)
  exact absurd hSame (by decide)

end IncidentTools

end SentinelCommand
