import SentinelCommand.Incidents.Resolution
import SentinelCommand.Lib.Calls

/-
  Patches of one incident that run side by side: the REST
  route reads the whole row and writes all four fields back,
  while the MCP tool writes the fields it was given one by
  one.

  A field is lost when the route writes back what it read
  before another request set the field.

  Main declarations:
    * `Incidents.PatchCall`, `Incidents.patchProgram`
    * `Incidents.no_lost_update`
    * `Incidents.written_back_severity`
-/

--------------------
-- Fields
--------------------

namespace SentinelCommand

namespace Incidents

open Privacy

inductive Field where
  | status
  | severity
  | summary
  | report
  deriving DecidableEq, Repr

theorem Field.forall_iff {P : Field → Prop} :
    (∀ field, P field) ↔
      P .status ∧ P .severity ∧ P .summary ∧ P .report := by
  constructor
  · intro hAll
    exact ⟨hAll _, hAll _, hAll _, hAll _⟩
  · rintro ⟨hStatus, hSeverity, hSummary, hReport⟩ field
    cases field with
    | status => exact hStatus
    | severity => exact hSeverity
    | summary => exact hSummary
    | report => exact hReport

instance {P : Field → Prop} [DecidablePred P] :
    Decidable (∀ field, P field) :=
  decidable_of_iff _ Field.forall_iff.symm

def Field.read (row : Incident) : Field → Option String
| .status => some row.status
| .severity => some row.severity
| .summary => some row.summary
| .report => row.report

def Field.asked (patch : IncidentPatch) : Field → Option String
| .status => patch.status
| .severity => patch.severity
| .summary => patch.summary
| .report => patch.report

/- Who patches. -/
inductive PatchRequest where
  | rest (user : AuthUser) (patch : IncidentPatch)
  | tool (keyName : String) (patch : IncidentPatch)
  deriving DecidableEq, Repr

/-
  The value a request gives a field, if it sets the field.
  The tool stores its texts trimmed.
-/
def PatchRequest.gives : PatchRequest → Field → Option String
| .rest _ patch, field => field.asked patch
| .tool _ patch, .summary => patch.summary.map trimText
| .tool _ patch, .report => patch.report.map trimText
| .tool _ patch, field => field.asked patch

/- No field is set by both. -/
def Apart (first second : PatchRequest) : Prop :=
  ∀ field, first.gives field = none ∨ second.gives field = none

instance (first second : PatchRequest) :
    Decidable (Apart first second) :=
  inferInstanceAs
    (Decidable
      (∀ field,
        first.gives field = none ∨ second.gives field = none))

--------------------
-- The Tool's Statements
--------------------

/- An UPDATE of the tool, `updated_at` apart. -/
inductive Statement where
  | stamp (who : String)
  | clear
  | set (field : Field) (value : String)
  deriving DecidableEq, Repr

def Statement.apply
    (now : Int)
    (row : Incident) : Statement → Incident
| .stamp who =>
    { row with
      resolvedAt := some now
      resolvedBy := some who
      updatedAt := now }
| .clear =>
    { row with
      resolvedAt := none
      resolvedBy := none
      updatedAt := now }
| .set .status value =>
    { row with status := value, updatedAt := now }
| .set .severity value =>
    { row with severity := value, updatedAt := now }
| .set .summary value =>
    { row with summary := value, updatedAt := now }
| .set .report value =>
    { row with report := some value, updatedAt := now }

def statusStatements
    (keyName : String)
    (existing : Incident) : Option String → List Statement
| none => []
| some status =>
    (if terminal status ∧ ¬ terminal existing.status then
      [.stamp (agentLabel keyName)]
    else if status = "open" then
      [.clear]
    else
      []) ++ [.set .status status]

def severityStatements : Option String → List Statement
| none => []
| some severity => [.set .severity severity]

def summaryStatements :
    Option String → Except String (List Statement)
| none => .ok []
| some summary =>
    if trimText summary = "" then
      .error ("summary cannot be blank — pass None to " ++
        "leave it unchanged")
    else if summary.length > maxSummaryChars then
      .error
        ("summary too long (" ++ toString summary.length ++
          " chars; max " ++ toString maxSummaryChars ++ ")")
    else
      .ok [.set .summary (trimText summary)]

def reportStatements :
    Option String → Except String (List Statement)
| none => .ok []
| some report =>
    if report.length > maxReportChars then
      .error
        ("report too long (" ++ toString report.length ++
          " chars; max " ++ toString maxReportChars ++ ")")
    else
      .ok [.set .report (trimText report)]

/-
  What the tool runs once it has read the incident, and the
  refusal it ends with, if there is one.
-/
def toolPlan
    (keyName : String)
    (existing : Incident)
    (patch : IncidentPatch) :
    List Statement × Option String :=
  let first :=
    statusStatements keyName existing patch.status ++
      severityStatements patch.severity
  match summaryStatements patch.summary with
  | .error refusal => (first, some refusal)
  | .ok second =>
      match reportStatements patch.report with
      | .error refusal => (first ++ second, some refusal)
      | .ok third => (first ++ second ++ third, none)

def applyAll
    (now : Int)
    (statements : List Statement)
    (row : Incident) : Incident :=
  statements.foldl (Statement.apply now) row

--------------------
-- Calls
--------------------

/-
  The incident's row, and beside it the value each field was
  last given by a request that set it.
-/
structure Patched where
  row : Incident
  given : Field → Option String

/- The statement a call waits for. -/
inductive PatchStage where
  | reading
  | writing (old : Incident) (now : Int)
  | toolWriting
      (now : Int)
      (left : List Statement)
      (refusal : Option String)
  | finished
  | refused (message : String)
  | failed
  deriving DecidableEq, Repr

structure PatchCall where
  request : PatchRequest
  stage : PatchStage
  deriving DecidableEq, Repr

/- How a statement comes back, and the clock after it. -/
structure Reply where
  fails : Bool
  now : Int
  deriving DecidableEq, Repr

def beginPatch
    (s : Patched)
    (request : PatchRequest) :
    Patched × Option PatchCall :=
  match request with
  | .rest _ _ =>
      (s, some { request := request, stage := .reading })
  | .tool _ patch =>
      match toolUpdateRefusal patch with
      | some refusal =>
          (s,
            some
              { request := request
                stage := .refused refusal })
      | none =>
          (s, some { request := request, stage := .reading })

/- The request's fields have the values it gives. -/
def overlay
    (given : Field → Option String)
    (request : PatchRequest)
    (field : Field) : Option String :=
  (request.gives field).or (given field)

/- The tool's UPDATE gives a field its value. -/
def recordSet
    (given : Field → Option String) :
    Statement → Field → Option String
| .set field value, other =>
    if other = field then some value else given other
| _, other => given other

/- `owned_incident` came back with the row. -/
def readStage
    (request : PatchRequest)
    (old : Incident)
    (now : Int) : PatchStage :=
  match request with
  | .rest user patch =>
      if patch.status.getD "open" ∉ statuses then
        .refused
          ("Invalid status: " ++ patch.status.getD "open")
      else if patch.severity.getD "low" ∉ severities then
        .refused
          ("Invalid severity: " ++ patch.severity.getD "low")
      else if
          patched old patch ("user:" ++ user.userId) now =
            old then
        .finished
      else
        .writing old now
  | .tool keyName patch =>
      .toolWriting now (toolPlan keyName old patch).1
        (toolPlan keyName old patch).2

/- The row that the route writes back. -/
def writtenRow
    (request : PatchRequest)
    (old : Incident)
    (now : Int) : Incident :=
  match request with
  | .rest user patch =>
      patched old patch ("user:" ++ user.userId) now
  | .tool _ _ => old

def resumePatch
    (s : Patched)
    (call : PatchCall)
    (reply : Reply) : Patched × PatchCall :=
  match call.stage with
  | .reading =>
      if reply.fails then
        (s, { call with stage := .failed })
      else
        let stage := readStage call.request s.row reply.now
        -- Nothing to write: the row has the values already.
        if stage = .finished then
          ({ s with given := overlay s.given call.request },
            { call with stage := stage })
        else
          (s, { call with stage := stage })
  | .writing old now =>
      if reply.fails then
        (s, { call with stage := .failed })
      else
        ({ row :=
            patchRow (writtenRow call.request old now) reply.now
              s.row
           given := overlay s.given call.request },
          { call with stage := .finished })
  | .toolWriting now (statement :: left) refusal =>
      if reply.fails then
        (s, { call with stage := .failed })
      else
        ({ row := statement.apply now s.row
           given := recordSet s.given statement },
          { call with
            stage := .toolWriting now left refusal })
  | .toolWriting _ [] (some refusal) =>
      (s, { call with stage := .refused refusal })
  | .toolWriting _ [] none =>
      (s, { call with stage := .finished })
  | .finished => (s, call)
  | .refused _ => (s, call)
  | .failed => (s, call)

def patchProgram :
    Calls.Program Patched PatchCall PatchRequest Reply where
  begin := beginPatch
  resume := resumePatch

abbrev PatchConfig : Type :=
  Calls.Config Patched PatchCall

abbrev PatchEvent : Type :=
  Calls.Event PatchRequest Reply

def patchStep : PatchConfig → PatchEvent → PatchConfig :=
  Calls.step patchProgram

/- The incident before any of the requests. -/
def untouched (row : Incident) : PatchConfig :=
  Calls.initial { row := row, given := fun _ => none }

--------------------
-- The Tool on Its Own
--------------------

variable {keyName : String}
variable {incidentId now : Int}
variable {patch : IncidentPatch}

/- Statements that write the row with an id. -/
def runStatements
    (db : Db)
    (incidentId now : Int)
    (statements : List Statement) : Db :=
  setIncident db (·.id == incidentId)
    (applyAll now statements)

theorem apply_id
    (statement : Statement)
    (row : Incident) :
    (statement.apply now row).id = row.id := by
  cases statement with
  | stamp => rfl
  | clear => rfl
  | set field value => cases field <;> rfl

theorem runStatements_nil (db : Db) :
    runStatements db incidentId now [] = db := by
  simp [runStatements, setIncident, applyAll]

theorem applyAll_id
    (statements : List Statement)
    (row : Incident) :
    (applyAll now statements row).id = row.id := by
  induction statements generalizing row with
  | nil => rfl
  | cons statement rest ih =>
      exact (ih _).trans (apply_id statement row)

theorem applyAll_append
    (first second : List Statement)
    (row : Incident) :
    applyAll now (first ++ second) row =
      applyAll now second (applyAll now first row) :=
  List.foldl_append

theorem apply_orgId
    (statement : Statement)
    (row : Incident) :
    (statement.apply now row).orgId = row.orgId := by
  cases statement with
  | stamp => rfl
  | clear => rfl
  | set field value => cases field <;> rfl

theorem applyAll_orgId
    (statements : List Statement)
    (row : Incident) :
    (applyAll now statements row).orgId = row.orgId := by
  induction statements generalizing row with
  | nil => rfl
  | cons statement rest ih =>
      exact (ih _).trans (apply_orgId statement row)

/- The incident of an id, once statements have run. -/
theorem ownedIncident_runStatements
    (db : Db)
    (orgId : String)
    (other : Int)
    (statements : List Statement) :
    ownedIncident (runStatements db incidentId now statements)
        orgId other =
      (ownedIncident db orgId other).map
        (fun row =>
          if row.id = incidentId then
            applyAll now statements row
          else
            row) := by
  have hHit (row : Incident) :
      isIncident orgId other
          (if row.id = incidentId then
            applyAll now statements row
          else
            row) =
        isIncident orgId other row := by
    split
    · simp [isIncident, applyAll_id, applyAll_orgId]
    · rfl
  simp only [ownedIncident, runStatements, setIncident,
    List.find?_map, Function.comp_def, beq_iff_eq, hHit]

/- One list of statements after another. -/
theorem runStatements_append
    (db : Db)
    (first second : List Statement) :
    runStatements (runStatements db incidentId now first)
        incidentId now second =
      runStatements db incidentId now (first ++ second) := by
  unfold runStatements setIncident
  simp only [List.map_map, Db.mk.injEq, true_and, and_true]
  apply List.map_congr_left
  intro row _
  by_cases hHit : row.id = incidentId
  · have hSame : (applyAll now first row).id = incidentId :=
      (applyAll_id first row).trans hHit
    simp [hHit, hSame, applyAll_append]
  · simp [hHit]

theorem afterStatus_eq_runStatements
    (db : Db)
    (existing : Incident)
    (status : Option String) :
    afterStatus db keyName incidentId existing status now =
      runStatements db incidentId now
        (statusStatements keyName existing status) := by
  cases status with
  | none => exact (runStatements_nil db).symm
  | some status =>
      simp only [afterStatus, toolSetStatus, runStatements,
        statusStatements]
      split
      · rfl
      · split
        · rfl
        · rfl

theorem toolSetSummary_eq_statements
    (db : Db)
    (summary : Option String) :
    toolSetSummary db incidentId summary now =
      (summaryStatements summary).map
        (runStatements db incidentId now) := by
  cases summary with
  | none =>
      exact
        congrArg Except.ok (runStatements_nil db).symm
  | some summary =>
      simp only [toolSetSummary, summaryStatements]
      split
      · rfl
      · split
        · rfl
        · rfl

theorem toolSetReport_eq_statements
    (db : Db)
    (report : Option String) :
    toolSetReport db incidentId report now =
      (reportStatements report).map
        (runStatements db incidentId now) := by
  cases report with
  | none =>
      exact
        congrArg Except.ok (runStatements_nil db).symm
  | some report =>
      simp only [toolSetReport, reportStatements]
      split
      · rfl
      · rfl

/-
  Run alone, the statements leave what the tool as
  `Privacy` has it leaves.
-/
theorem toolUpdateIncident_eq_statements
    {db : Db}
    {orgId : String}
    {existing : Incident}
    (hRefusal : toolUpdateRefusal patch = none)
    (hFound :
      ownedIncident db orgId (asI32 incidentId) =
        some existing) :
    (toolUpdateIncident db orgId keyName incidentId patch
        now).1 =
      runStatements db (asI32 incidentId) now
        (toolPlan keyName existing patch).1 := by
  rw [toolUpdateIncident_accepted hRefusal hFound,
    afterStatus_eq_runStatements]
  have hSeverity (first : Db) :
      toolSetSeverity first (asI32 incidentId) patch.severity
          now =
        runStatements first (asI32 incidentId) now
          (severityStatements patch.severity) := by
    cases patch.severity with
    | none => exact (runStatements_nil first).symm
    | some severity => rfl
  simp only [laterWrites, hSeverity, runStatements_append]
  rw [toolSetSummary_eq_statements]
  simp only [toolPlan]
  cases summaryStatements patch.summary with
  | error refusal => rfl
  | ok second =>
      simp only [Except.map, runStatements_append]
      rw [toolSetReport_eq_statements]
      cases reportStatements patch.report with
      | error refusal => rfl
      | ok third =>
          simp only [Except.map, runStatements_append]

--------------------
-- Moves
--------------------

variable {s : Patched}
variable {reply : Reply}
variable {request : PatchRequest}

/- What a call can do to its stage and to the row. -/
inductive PatchMove
    (s : Patched)
    (reply : Reply)
    (request : PatchRequest) :
    PatchStage → PatchStage → Patched → Prop where
  | stop
      {stage : PatchStage}
      (next : PatchStage)
      (hNext :
        next = .failed ∨ ∃ message, next = .refused message) :
      PatchMove s reply request stage next s
  | stay : PatchMove s reply request .finished .finished s
  | read
      (user : AuthUser)
      (patch : IncidentPatch)
      (hRequest : request = .rest user patch) :
      PatchMove s reply request .reading
        (.writing s.row reply.now) s
  | same
      (user : AuthUser)
      (patch : IncidentPatch)
      (hRequest : request = .rest user patch)
      (hSame :
        patched s.row patch ("user:" ++ user.userId) reply.now =
          s.row) :
      PatchMove s reply request .reading .finished
        { s with given := overlay s.given request }
  | write
      (old : Incident)
      (now : Int)
      (hRuns : reply.fails = false) :
      PatchMove s reply request (.writing old now) .finished
        { row :=
            patchRow (writtenRow request old now) reply.now
              s.row
          given := overlay s.given request }
  | plan
      (keyName : String)
      (patch : IncidentPatch)
      (hRequest : request = .tool keyName patch) :
      PatchMove s reply request .reading
        (.toolWriting reply.now (toolPlan keyName s.row patch).1
          (toolPlan keyName s.row patch).2) s
  | run
      (now : Int)
      (statement : Statement)
      (left : List Statement)
      (refusal : Option String) :
      PatchMove s reply request
        (.toolWriting now (statement :: left) refusal)
        (.toolWriting now left refusal)
        { row := statement.apply now s.row
          given := recordSet s.given statement }
  | done (now : Int) :
      PatchMove s reply request (.toolWriting now [] none)
        .finished s

theorem move_reading
    (s : Patched)
    (reply : Reply)
    (request : PatchRequest) :
    PatchMove s reply request .reading
      (resumePatch s
        { request := request, stage := .reading } reply).2.stage
      (resumePatch s
        { request := request, stage := .reading }
        reply).1 := by
  by_cases hFails : reply.fails = true
  · simp only [resumePatch, hFails, if_true]
    exact .stop _ (Or.inl rfl)
  · simp only [resumePatch, hFails, if_false,
      Bool.false_eq_true]
    cases request with
    | tool keyName patch => exact .plan keyName patch rfl
    | rest user patch =>
        by_cases hStatus :
            patch.status.getD "open" ∈ statuses
        · by_cases hSeverity :
              patch.severity.getD "low" ∈ severities
          · by_cases hSame :
                patched s.row patch ("user:" ++ user.userId)
                    reply.now =
                  s.row
            · simp only [readStage, hStatus, hSeverity, hSame,
                not_true_eq_false, if_false, if_true]
              exact .same user patch rfl hSame
            · simp only [readStage, hStatus, hSeverity, hSame,
                not_true_eq_false, if_false, reduceCtorEq]
              exact .read user patch rfl
          · simp only [readStage, hStatus, hSeverity,
              not_true_eq_false, not_false_eq_true, if_false,
              if_true, reduceCtorEq]
            exact .stop _ (Or.inr ⟨_, rfl⟩)
        · simp only [readStage, hStatus, not_false_eq_true,
            if_true, reduceCtorEq, if_false]
          exact .stop _ (Or.inr ⟨_, rfl⟩)

/- Every resumption is a move, of the same request. -/
theorem move_of_resume
    (s : Patched)
    (call : PatchCall)
    (reply : Reply) :
    (resumePatch s call reply).2.request = call.request ∧
      PatchMove s reply call.request call.stage
        (resumePatch s call reply).2.stage
        (resumePatch s call reply).1 := by
  rcases call with ⟨request, stage⟩
  cases stage with
  | reading =>
      refine ⟨?_, move_reading s reply request⟩
      simp only [resumePatch]
      split
      · rfl
      · split <;> rfl
  | writing old now =>
      by_cases hFails : reply.fails = true
      · simp only [resumePatch, hFails, if_true]
        exact ⟨trivial, .stop _ (Or.inl rfl)⟩
      · simp only [resumePatch, hFails, if_false,
          Bool.false_eq_true]
        exact
          ⟨trivial,
            .write old now (Bool.eq_false_iff.mpr hFails)⟩
  | toolWriting now left refusal =>
      cases left with
      | nil =>
          cases refusal with
          | none => exact ⟨rfl, .done now⟩
          | some refusal =>
              exact ⟨rfl, .stop _ (Or.inr ⟨refusal, rfl⟩)⟩
      | cons statement left =>
          by_cases hFails : reply.fails = true
          · simp only [resumePatch, hFails, if_true]
            exact ⟨trivial, .stop _ (Or.inl rfl)⟩
          · simp only [resumePatch, hFails, if_false,
              Bool.false_eq_true]
            exact ⟨trivial, .run now statement left refusal⟩
  | finished => exact ⟨rfl, .stay⟩
  | refused message =>
      exact ⟨rfl, .stop _ (Or.inr ⟨message, rfl⟩)⟩
  | failed => exact ⟨rfl, .stop _ (Or.inl rfl)⟩

variable {field : Field}
variable {row old : Incident}
variable {now later : Int}

@[simp] theorem read_patchRow (written : Incident) :
    field.read (patchRow written now row) =
      field.read written := by
  cases field <;> rfl

theorem read_patched
    (field : Field)
    (old : Incident)
    (patch : IncidentPatch)
    (who : String)
    (now : Int) :
    field.read (patched old patch who now) =
      (field.asked patch).or (field.read old) := by
  rcases patch with ⟨status, severity, summary, report⟩
  cases field with
  | status => cases status <;> rfl
  | severity => cases severity <;> rfl
  | summary => cases summary <;> rfl
  | report => rfl

/- A set field has its value, and the others stay. -/
theorem read_apply_set
    (other : Field)
    (value : String) :
    field.read ((Statement.set other value).apply now row) =
      if field = other then some value else field.read row := by
  cases other <;> cases field <;> rfl

@[simp] theorem read_apply_stamp (who : String) :
    field.read ((Statement.stamp who).apply now row) =
      field.read row := by
  cases field <;> rfl

@[simp] theorem read_apply_clear :
    field.read (Statement.clear.apply now row) =
      field.read row := by
  cases field <;> rfl

--------------------
-- Writing Back
--------------------

variable {s after : Patched}
variable {stage next : PatchStage}
variable {c : PatchConfig}

/-
  If the event is an UPDATE of the REST route, the fields
  the patch does not set still hold what the route read.
-/
def KeepsOthers (c : PatchConfig) (e : PatchEvent) : Prop :=
  match Calls.resumed c e with
  | some (⟨request, .writing old _⟩, reply) =>
      reply.fails = false →
        ∀ field, request.gives field = none →
          field.read old = field.read c.shared.row
  | _ => True

/- Every field given a value holds it. -/
def Kept (s : Patched) : Prop :=
  ∀ field value, s.given field = some value →
    field.read s.row = some value

/-
  A field that the route read, does not set and would write
  back has not changed since, or was set by a request.
-/
def Seen (s : Patched) (call : PatchCall) : Prop :=
  ∀ old now, call.stage = .writing old now →
    (∃ user patch, call.request = .rest user patch) ∧
      ∀ field, call.request.gives field = none →
        field.read old = field.read s.row ∨
          s.given field ≠ none

/- What a field was given, it stays given. -/
structure Later (s after : Patched) : Prop where
  read :
    ∀ field, field.read after.row = field.read s.row ∨
      after.given field ≠ none
  given :
    ∀ field, s.given field ≠ none → after.given field ≠ none

theorem later_refl : Later s s :=
  ⟨fun _ => Or.inl rfl, fun _ hGiven => hGiven⟩

theorem seen_later
    {call : PatchCall}
    (hLater : Later s after)
    (hSeen : Seen s call) :
    Seen after call := by
  intro old now hStage
  rcases hSeen old now hStage with ⟨hRest, hFields⟩
  refine ⟨hRest, fun field hNone => ?_⟩
  rcases hFields field hNone with hSame | hGiven
  · rcases hLater.read field with hRead | hNew
    · exact Or.inl (hSame.trans hRead.symm)
    · exact Or.inr hNew
  · exact Or.inr (hLater.given field hGiven)

theorem overlay_of_none
    {field : Field}
    (given : Field → Option String)
    (hNone : request.gives field = none) :
    overlay given request field = given field := by
  rw [overlay, hNone, Option.none_or]

theorem overlay_of_some
    {field : Field}
    {value : String}
    (given : Field → Option String)
    (hSome : request.gives field = some value) :
    overlay given request field = some value := by
  rw [overlay, hSome, Option.some_or]

theorem overlay_ne_none
    {field : Field}
    {given : Field → Option String}
    (hGiven : given field ≠ none) :
    overlay given request field ≠ none := by
  cases hOwn : request.gives field with
  | none => rwa [overlay_of_none given hOwn]
  | some value =>
      rw [overlay_of_some given hOwn]
      exact Option.some_ne_none value

/- The row that the REST route writes, field by field. -/
theorem read_written
    (user : AuthUser)
    (patch : IncidentPatch)
    (hRequest : request = .rest user patch)
    (old : Incident)
    (now later : Int)
    (field : Field) :
    field.read
        (patchRow (writtenRow request old now) later s.row) =
      (request.gives field).or (field.read old) := by
  subst hRequest
  rw [read_patchRow]
  exact
    read_patched field old patch ("user:" ++ user.userId) now

/- The UPDATE of the route, when it keeps the others. -/
theorem kept_write
    (hKept : Kept s)
    {old : Incident}
    {now : Int}
    (hSeen :
      Seen s { request := request, stage := .writing old now })
    (later : Int) :
    let after : Patched :=
      { row := patchRow (writtenRow request old now) later s.row
        given := overlay s.given request }
    Kept after ↔
      ∀ field, request.gives field = none →
        field.read old = field.read s.row := by
  intro after
  rcases hSeen old now rfl with ⟨⟨user, patch, hRest⟩, hFields⟩
  have hRead :=
    fun field =>
      read_written (s := s) user patch hRest old now later field
  constructor
  · intro hAfter field hNone
    rcases hFields field hNone with hSame | hGiven
    · exact hSame
    · rcases Option.ne_none_iff_exists'.mp hGiven with
        ⟨value, hValue⟩
      have hNow := hAfter field value
        ((overlay_of_none s.given hNone).trans hValue)
      rw [hRead, hNone, Option.none_or] at hNow
      exact hNow.trans (hKept field value hValue).symm
  · intro hSame field value hValue
    rw [hRead]
    cases hOwn : request.gives field with
    | none =>
        rw [Option.none_or, hSame field hOwn]
        exact hKept field value
          ((overlay_of_none s.given hOwn).symm.trans hValue)
    | some given =>
        rw [Option.some_or]
        exact (overlay_of_some s.given hOwn).symm.trans hValue

/- A move that is no UPDATE of the route keeps all values. -/
theorem kept_move
    (hKept : Kept s)
    (hMove : PatchMove s reply request stage next after)
    (hNot :
      ∀ old now, stage = .writing old now →
        reply.fails = true) :
    Kept after := by
  cases hMove with
  | stop => exact hKept
  | stay => exact hKept
  | read => exact hKept
  | plan => exact hKept
  | done => exact hKept
  | write old now hRuns =>
      rw [hNot old now rfl] at hRuns
      cases hRuns
  | same user patch hRequest hSame =>
      intro field value hValue
      have hRead :
          (request.gives field).or (field.read s.row) =
            field.read s.row := by
        have hFields :=
          read_patched field s.row patch
            ("user:" ++ user.userId) reply.now
        rw [hSame] at hFields
        rw [hRequest]
        exact hFields.symm
      cases hOwn : request.gives field with
      | none =>
          exact hKept field value
            ((overlay_of_none s.given hOwn).symm.trans hValue)
      | some given =>
          rw [hOwn, Option.some_or] at hRead
          exact hRead.symm.trans
            ((overlay_of_some s.given hOwn).symm.trans hValue)
  | run now statement left refusal =>
      intro field value hValue
      cases statement with
      | stamp who =>
          rw [read_apply_stamp]
          exact hKept field value hValue
      | clear =>
          rw [read_apply_clear]
          exact hKept field value hValue
      | set other set =>
          rw [read_apply_set]
          simp only [recordSet] at hValue
          split
          · rename_i hField
            rwa [if_pos hField] at hValue
          · rename_i hField
            rw [if_neg hField] at hValue
            exact hKept field value hValue

/- A move that keeps the others changes what it is given. -/
theorem later_move
    (hMove : PatchMove s reply request stage next after)
    (hWrite :
      ∀ old now, stage = .writing old now →
        (∃ user patch, request = .rest user patch) ∧
          (reply.fails = false →
            ∀ field, request.gives field = none →
              field.read old = field.read s.row)) :
    Later s after := by
  cases hMove with
  | stop => exact later_refl
  | stay => exact later_refl
  | read => exact later_refl
  | plan => exact later_refl
  | done => exact later_refl
  | same user patch =>
      exact
        ⟨fun _ => Or.inl rfl, fun _ hGiven =>
          overlay_ne_none hGiven⟩
  | write old now hRuns =>
      rcases hWrite old now rfl with
        ⟨⟨user, patch, hRest⟩, hKeeps⟩
      have hSame := hKeeps hRuns
      refine ⟨fun field => ?_, fun _ hGiven =>
        overlay_ne_none hGiven⟩
      rw [read_written user patch hRest]
      cases hOwn : request.gives field with
      | none =>
          rw [Option.none_or]
          exact Or.inl (hSame field hOwn)
      | some value =>
          refine Or.inr ?_
          change overlay s.given request field ≠ none
          rw [overlay_of_some s.given hOwn]
          exact Option.some_ne_none value
  | run now statement left refusal =>
      cases statement with
      | stamp who =>
          exact
            ⟨fun _ => Or.inl (read_apply_stamp who),
              fun _ hGiven => hGiven⟩
      | clear =>
          exact
            ⟨fun _ => Or.inl read_apply_clear,
              fun _ hGiven => hGiven⟩
      | set other value =>
          refine ⟨fun field => ?_, fun field hGiven => ?_⟩
          · by_cases hField : field = other
            · refine Or.inr ?_
              simp [recordSet, hField]
            · refine Or.inl ?_
              rw [read_apply_set, if_neg hField]
          · by_cases hField : field = other
            · simp [recordSet, hField]
            · simpa [recordSet, hField] using hGiven

--------------------
-- Values That Last
--------------------

def AllSeen (c : PatchConfig) : Prop :=
  ∀ call ∈ c.calls, Seen c.shared call

/- A start looks at nothing but its request. -/
theorem beginPatch_cases
    (s : Patched)
    (request : PatchRequest) :
    ∃ stage,
      beginPatch s request =
          (s, some { request := request, stage := stage }) ∧
        (stage = .reading ∨
          ∃ message, stage = .refused message) := by
  cases request with
  | rest user patch => exact ⟨_, rfl, Or.inl rfl⟩
  | tool keyName patch =>
      unfold beginPatch
      dsimp only
      split
      · exact ⟨_, rfl, Or.inr ⟨_, rfl⟩⟩
      · exact ⟨_, rfl, Or.inl rfl⟩

/- A call that has just read has seen the row. -/
theorem seen_next
    {s after : Patched}
    {reply : Reply}
    {request : PatchRequest}
    {stage next : PatchStage}
    (hMove : PatchMove s reply request stage next after) :
    Seen after { request := request, stage := next } := by
  intro old now hStage
  have hWriting : next = .writing old now := hStage
  cases hMove with
  | read user patch hRequest =>
      cases hWriting
      exact
        ⟨⟨user, patch, hRequest⟩, fun _ _ => Or.inl rfl⟩
  | stop next hNext =>
      rcases hNext with rfl | ⟨message, rfl⟩
      · cases hWriting
      · cases hWriting
  | stay => cases hWriting
  | same => cases hWriting
  | write => cases hWriting
  | plan => cases hWriting
  | run => cases hWriting
  | done => cases hWriting

/- What `KeepsOthers` says of a resumed call. -/
theorem keepsOthers_resume
    {id : Nat}
    {call : PatchCall}
    {reply : Reply}
    (hCall : c.calls[id]? = some call) :
    KeepsOthers c (.resume id reply) ↔
      ∀ old now, call.stage = .writing old now →
        reply.fails = false →
          ∀ field, call.request.gives field = none →
            field.read old = field.read c.shared.row := by
  rcases call with ⟨request, stage⟩
  simp only [KeepsOthers, Calls.resumed, hCall,
    Option.map_some]
  cases stage with
  | writing old now =>
      constructor
      · intro hKeeps other later hStage
        cases hStage
        exact hKeeps
      · exact fun hKeeps => hKeeps old now rfl
  | reading => simp
  | toolWriting => simp
  | finished => simp
  | refused => simp
  | failed => simp

theorem allSeen_step
    (hSeen : AllSeen c)
    {e : PatchEvent}
    (hKeeps : KeepsOthers c e) :
    AllSeen (patchStep c e) := by
  cases e with
  | start request =>
      rcases beginPatch_cases c.shared request with
        ⟨stage, hBegin, hStage⟩
      simp only [patchStep, Calls.step, patchProgram, hBegin,
        Option.toList_some]
      apply Calls.forall_started hSeen
      intro old now hWriting
      rcases hStage with rfl | ⟨message, rfl⟩
      · cases hWriting
      · cases hWriting
  | resume id reply =>
      cases hCall : c.calls[id]? with
      | none => simpa [patchStep, Calls.step, hCall] using hSeen
      | some call =>
          rcases move_of_resume c.shared call reply with
            ⟨hRequest, hMove⟩
          have hOwn :=
            hSeen call (List.mem_of_getElem? hCall)
          have hLater := later_move hMove ?_
          · simp only [patchStep, Calls.step, hCall,
              patchProgram]
            apply Calls.forall_resumed
            · exact fun other hIn =>
                seen_later hLater (hSeen other hIn)
            · have hNext := seen_next hMove
              rw [← hRequest] at hNext
              exact hNext
          · intro old now hStage
            exact
              ⟨(hOwn old now hStage).1,
                (keepsOthers_resume hCall).mp hKeeps old now
                  hStage⟩

/- Only an UPDATE that does not keep the others loses one. -/
theorem kept_step_iff
    (hSeen : AllSeen c)
    (hKept : Kept c.shared)
    (e : PatchEvent) :
    Kept (patchStep c e).shared ↔ KeepsOthers c e := by
  cases e with
  | start request =>
      rcases beginPatch_cases c.shared request with
        ⟨stage, hBegin, hStage⟩
      simp only [patchStep, Calls.step, patchProgram, hBegin]
      exact ⟨fun _ => trivial, fun _ => hKept⟩
  | resume id reply =>
      cases hCall : c.calls[id]? with
      | none =>
          simpa [patchStep, Calls.step, hCall, KeepsOthers,
            Calls.resumed] using hKept
      | some call =>
          rcases move_of_resume c.shared call reply with
            ⟨-, hMove⟩
          have hOwn :=
            hSeen call (List.mem_of_getElem? hCall)
          rw [keepsOthers_resume hCall]
          simp only [patchStep, Calls.step, hCall,
            patchProgram]
          rcases call with ⟨request, stage⟩
          by_cases hWriting :
              ∃ old now,
                stage = .writing old now ∧ reply.fails = false
          · rcases hWriting with ⟨old, now, rfl, hRuns⟩
            have hWrite := kept_write hKept hOwn reply.now
            simp only [resumePatch, hRuns, Bool.false_eq_true,
              if_false]
            refine hWrite.trans ⟨?_, ?_⟩
            · intro hSame other later hStage _
              cases hStage
              exact hSame
            · exact fun hAll => hAll old now rfl trivial
          · have hFails :
                ∀ old now, stage = .writing old now →
                  reply.fails = true := by
              intro old now hStage
              by_contra hRuns
              exact hWriting
                ⟨old, now, hStage, Bool.eq_false_iff.mpr hRuns⟩
            refine
              ⟨fun _ old now hStage hRuns => ?_,
                fun _ => kept_move hKept hMove hFails⟩
            rw [hFails old now hStage] at hRuns
            cases hRuns

/-
  Along a run every field holds the value it was last given
  exactly when no UPDATE of the route writes back a field
  that has changed since it was read.
-/
theorem kept_iff_meets
    (row : Incident)
    (events : List PatchEvent) :
    (∀ past, past <+: events →
        Kept
          (Run.exec patchStep (untouched row) past).shared) ↔
      Run.Meets patchStep KeepsOthers (untouched row)
        events := by
  have hInv :
      ∀ c e, AllSeen c → Kept c.shared → KeepsOthers c e →
        AllSeen (patchStep c e) :=
    fun _ _ hSeen _ hKeeps => allSeen_step hSeen hKeeps
  have hKept :
      ∀ c e, AllSeen c → Kept c.shared →
        (Kept (patchStep c e).shared ↔ KeepsOthers c e) :=
    fun _ e hSeen hKept => kept_step_iff hSeen hKept e
  have hUntouched : Kept (untouched row).shared := by
    intro field value hGiven
    cases hGiven
  exact
    Run.kept_prefixes_iff_meets
      (fun c : PatchConfig => Kept c.shared) hInv hKept events
      (fun _ hCall => absurd hCall List.not_mem_nil) hUntouched

--------------------
-- Requests That Finish
--------------------

/-
  What a request gave has been given once it has finished,
  and the tool's statements are the fields it still has to
  set.
-/
structure Progress (s : Patched) (call : PatchCall) : Prop where
  finished :
    call.stage = .finished →
      ∀ field value, call.request.gives field = some value →
        s.given field = some value
  own :
    ∀ now left refusal,
      call.stage = .toolWriting now left refusal →
        ∀ field value, .set field value ∈ left →
          call.request.gives field = some value
  left :
    ∀ now left,
      call.stage = .toolWriting now left none →
        ∀ field value, call.request.gives field = some value →
          .set field value ∈ left ∨ s.given field = some value

/- Nothing is asked of a call that is at neither stage. -/
theorem progress_of_stage
    (hStage :
      stage ≠ .finished ∧
        ∀ now left refusal,
          stage ≠ .toolWriting now left refusal) :
    Progress s { request := request, stage := stage } where
  finished hFinished := absurd hFinished hStage.1
  own now left refusal hTool :=
    absurd hTool (hStage.2 now left refusal)
  left now left hTool := absurd hTool (hStage.2 now left none)

/- A request leaves the others what they were given. -/
theorem progress_apart
    {call : PatchCall}
    (hProgress : Progress s call)
    (hApart : Apart request call.request)
    (hGiven :
      ∀ field, request.gives field = none →
        after.given field = s.given field) :
    Progress after call := by
  have hSame :
      ∀ field value, call.request.gives field = some value →
        after.given field = s.given field := by
    intro field value hGives
    rcases hApart field with hNone | hNone
    · exact hGiven field hNone
    · rw [hNone] at hGives
      cases hGives
  refine ⟨?_, hProgress.own, ?_⟩
  · intro hStage field value hGives
    rw [hSame field value hGives]
    exact hProgress.finished hStage field value hGives
  · intro now left hStage field value hGives
    rw [hSame field value hGives]
    exact hProgress.left now left hStage field value hGives

theorem set_mem_statusStatements
    {keyName : String}
    {existing : Incident}
    {status : Option String}
    {field : Field}
    {value : String} :
    .set field value ∈
        statusStatements keyName existing status ↔
      field = .status ∧ status = some value := by
  cases status with
  | none => simp [statusStatements]
  | some status =>
      simp only [statusStatements, List.mem_append,
        List.mem_singleton, Statement.set.injEq,
        Option.some.injEq]
      constructor
      · rintro (hStamp | ⟨hField, hValue⟩)
        · split at hStamp
          · simp at hStamp
          · split at hStamp
            · simp at hStamp
            · simp at hStamp
        · exact ⟨hField, hValue.symm⟩
      · rintro ⟨hField, hValue⟩
        exact Or.inr ⟨hField, hValue.symm⟩

theorem set_mem_severityStatements
    {severity : Option String}
    {field : Field}
    {value : String} :
    .set field value ∈ severityStatements severity ↔
      field = .severity ∧ severity = some value := by
  cases severity with
  | none => simp [severityStatements]
  | some severity =>
      simp [severityStatements, eq_comm (a := value)]

theorem set_mem_summaryStatements
    {summary : Option String}
    {statements : List Statement}
    (hOk : summaryStatements summary = .ok statements)
    {field : Field}
    {value : String} :
    .set field value ∈ statements ↔
      field = .summary ∧
        summary.map trimText = some value := by
  cases summary with
  | none =>
      cases hOk
      simp
  | some summary =>
      simp only [summaryStatements] at hOk
      split at hOk
      · cases hOk
      · split at hOk
        · cases hOk
        · cases hOk
          simp [eq_comm (a := value)]

theorem set_mem_reportStatements
    {report : Option String}
    {statements : List Statement}
    (hOk : reportStatements report = .ok statements)
    {field : Field}
    {value : String} :
    .set field value ∈ statements ↔
      field = .report ∧ report.map trimText = some value := by
  cases report with
  | none =>
      cases hOk
      simp
  | some report =>
      simp only [reportStatements] at hOk
      split at hOk
      · cases hOk
      · cases hOk
        simp [eq_comm (a := value)]

/- The tool plans to set only what it was given. -/
theorem gives_of_set_mem
    {keyName : String}
    {patch : IncidentPatch}
    {existing : Incident}
    {field : Field}
    {value : String}
    (hSet :
      .set field value ∈ (toolPlan keyName existing patch).1) :
    (PatchRequest.tool keyName patch).gives field =
      some value := by
  have hFirst :
      .set field value ∈
          statusStatements keyName existing patch.status ++
            severityStatements patch.severity →
        (PatchRequest.tool keyName patch).gives field =
          some value := by
    intro hMem
    rcases List.mem_append.mp hMem with hStatus | hSeverity
    · rcases set_mem_statusStatements.mp hStatus with
        ⟨rfl, hValue⟩
      exact hValue
    · rcases set_mem_severityStatements.mp hSeverity with
        ⟨rfl, hValue⟩
      exact hValue
  simp only [toolPlan] at hSet
  split at hSet
  · exact hFirst hSet
  · rename_i second hSecond
    have hSummary :
        .set field value ∈ second →
          (PatchRequest.tool keyName patch).gives field =
            some value := by
      intro hMem
      rcases (set_mem_summaryStatements hSecond).mp hMem with
        ⟨rfl, hValue⟩
      exact hValue
    split at hSet
    · exact
        (List.mem_append.mp hSet).elim hFirst hSummary
    · rename_i third hThird
      rcases List.mem_append.mp hSet with hIn | hReport
      · exact (List.mem_append.mp hIn).elim hFirst hSummary
      · rcases (set_mem_reportStatements hThird).mp hReport with
          ⟨rfl, hValue⟩
        exact hValue

/- An accepted plan sets all that the tool was given. -/
theorem set_mem_of_gives
    {keyName : String}
    {patch : IncidentPatch}
    {existing : Incident}
    (hAccepted : (toolPlan keyName existing patch).2 = none)
    {field : Field}
    {value : String}
    (hGives :
      (PatchRequest.tool keyName patch).gives field =
        some value) :
    .set field value ∈ (toolPlan keyName existing patch).1 := by
  simp only [toolPlan] at hAccepted ⊢
  split at hAccepted
  · cases hAccepted
  · rename_i second hSecond
    split at hAccepted
    · cases hAccepted
    · rename_i third hThird
      simp only [List.mem_append, set_mem_statusStatements,
        set_mem_severityStatements,
        set_mem_summaryStatements hSecond,
        set_mem_reportStatements hThird]
      cases field with
      | status => exact Or.inl (Or.inl (Or.inl ⟨rfl, hGives⟩))
      | severity =>
          exact Or.inl (Or.inl (Or.inr ⟨rfl, hGives⟩))
      | summary => exact Or.inl (Or.inr ⟨rfl, hGives⟩)
      | report => exact Or.inr ⟨rfl, hGives⟩

/- What a move gives are fields of its own request. -/
theorem given_move
    (hMove : PatchMove s reply request stage next after)
    (hProgress :
      Progress s { request := request, stage := stage })
    {field : Field}
    (hNone : request.gives field = none) :
    after.given field = s.given field := by
  cases hMove with
  | stop => rfl
  | stay => rfl
  | read => rfl
  | plan => rfl
  | done => rfl
  | same => exact overlay_of_none s.given hNone
  | write => exact overlay_of_none s.given hNone
  | run now statement left refusal =>
      cases statement with
      | stamp => rfl
      | clear => rfl
      | set other value =>
          have hOwn :=
            hProgress.own now _ refusal rfl other value
              List.mem_cons_self
          have hNe : field ≠ other := by
            rintro rfl
            rw [hNone] at hOwn
            cases hOwn
          exact if_neg hNe

/- A call makes progress by every one of its moves. -/
theorem progress_move
    (hMove : PatchMove s reply request stage next after)
    (hProgress :
      Progress s { request := request, stage := stage }) :
    Progress after { request := request, stage := next } := by
  cases hMove with
  | stop next hNext =>
      apply progress_of_stage
      rcases hNext with rfl | ⟨message, rfl⟩
      · exact ⟨nofun, fun _ _ _ => nofun⟩
      · exact ⟨nofun, fun _ _ _ => nofun⟩
  | stay => exact hProgress
  | read =>
      exact progress_of_stage ⟨nofun, fun _ _ _ => nofun⟩
  | same =>
      exact
        ⟨fun _ _ _ hGives => overlay_of_some s.given hGives,
          nofun, nofun⟩
  | write =>
      exact
        ⟨fun _ _ _ hGives => overlay_of_some s.given hGives,
          nofun, nofun⟩
  | plan keyName patch hRequest =>
      subst hRequest
      refine ⟨nofun, ?_, ?_⟩
      · intro now left refusal hStage field value hSet
        cases hStage
        exact gives_of_set_mem hSet
      · intro now left hStage field value hGives
        injection hStage with hNow hLeft hRefusal
        subst hLeft
        exact Or.inl (set_mem_of_gives hRefusal hGives)
  | run now statement left refusal =>
      refine ⟨nofun, ?_, ?_⟩
      · intro later rest refused hStage field value hSet
        cases hStage
        exact
          hProgress.own now _ refusal rfl field value
            (List.mem_cons_of_mem statement hSet)
      · intro later rest hStage field value hGives
        cases hStage
        rcases hProgress.left now _ rfl field value hGives with
          hSet | hGiven
        · rcases List.mem_cons.mp hSet with rfl | hLeft
          · exact Or.inr (if_pos rfl)
          · exact Or.inl hLeft
        · refine Or.inr ?_
          cases statement with
          | stamp => exact hGiven
          | clear => exact hGiven
          | set other set =>
              have hOwn :=
                hProgress.own now _ none rfl other set
                  List.mem_cons_self
              by_cases hField : field = other
              · rw [← hField] at hOwn
                rw [← hGives, hOwn]
                exact if_pos hField
              · exact (if_neg hField).trans hGiven
  | done now =>
      refine ⟨?_, nofun, nofun⟩
      intro _ field value hGives
      rcases hProgress.left now [] rfl field value hGives with
        hSet | hGiven
      · cases hSet
      · exact hGiven

--------------------
-- Every Interleaving
--------------------

def started : PatchEvent → Option PatchRequest
| .start request => some request
| .resume _ _ => none

/- The calls are those of the requests, in order. -/
theorem requests_step
    (c : PatchConfig)
    (e : PatchEvent) :
    (patchStep c e).calls.map PatchCall.request =
      c.calls.map PatchCall.request ++ (started e).toList := by
  cases e with
  | start request =>
      rcases beginPatch_cases c.shared request with
        ⟨stage, hBegin, -⟩
      simp [patchStep, Calls.step, patchProgram, hBegin,
        started]
  | resume id reply =>
      cases hCall : c.calls[id]? with
      | none => simp [patchStep, Calls.step, hCall, started]
      | some call =>
          have hSame :=
            (move_of_resume c.shared call reply).1
          rcases List.getElem?_eq_some_iff.mp hCall with
            ⟨hLt, rfl⟩
          simp only [patchStep, Calls.step, hCall,
            patchProgram, started, Option.toList_none,
            List.append_nil, List.map_set, hSame]
          rw [← List.getElem_map PatchCall.request]
          · exact List.set_getElem_self _
          · simpa using hLt

theorem requests_exec
    (c : PatchConfig)
    (events : List PatchEvent) :
    (Run.exec patchStep c events).calls.map
        PatchCall.request =
      c.calls.map PatchCall.request ++
        events.filterMap started := by
  induction events generalizing c with
  | nil => simp
  | cons e rest ih =>
      rw [Run.exec_cons, ih, requests_step, List.append_assoc,
        List.filterMap_cons]
      cases started e <;> simp

def AllProgress (c : PatchConfig) : Prop :=
  ∀ call ∈ c.calls, Progress c.shared call

/- The calls' requests set no field twice. -/
def CallsApart (c : PatchConfig) : Prop :=
  (c.calls.map PatchCall.request).Pairwise Apart

theorem apart_of_ne
    (hApart : CallsApart c)
    {first second : Nat}
    (hNe : first ≠ second)
    {call other : PatchCall}
    (hCall : c.calls[first]? = some call)
    (hOther : c.calls[second]? = some other) :
    Apart call.request other.request := by
  have hSymm : ∀ request other : PatchRequest,
      Apart request other → Apart other request :=
    fun _ _ hBoth field => (hBoth field).symm
  have hFirst :
      (c.calls.map PatchCall.request)[first]? =
        some call.request := by
    rw [List.getElem?_map, hCall]
    rfl
  have hSecond :
      (c.calls.map PatchCall.request)[second]? =
        some other.request := by
    rw [List.getElem?_map, hOther]
    rfl
  rcases List.getElem?_eq_some_iff.mp hFirst with ⟨hLt, hAt⟩
  rcases List.getElem?_eq_some_iff.mp hSecond with
    ⟨hLt', hAt'⟩
  rw [← hAt, ← hAt']
  rcases Nat.lt_or_gt_of_ne hNe with hBefore | hAfter
  · exact List.pairwise_iff_getElem.mp hApart _ _ hLt hLt'
      hBefore
  · exact hSymm _ _
      (List.pairwise_iff_getElem.mp hApart _ _ hLt' hLt
        hAfter)

theorem allProgress_step
    (hProgress : AllProgress c)
    (hApart : CallsApart c)
    (e : PatchEvent) :
    AllProgress (patchStep c e) := by
  cases e with
  | start request =>
      rcases beginPatch_cases c.shared request with
        ⟨stage, hBegin, hStage⟩
      simp only [AllProgress, patchStep, Calls.step,
        patchProgram, hBegin, Option.toList_some]
      apply Calls.forall_started hProgress
      apply progress_of_stage
      rcases hStage with rfl | ⟨message, rfl⟩
      · exact ⟨by simp, by simp⟩
      · exact ⟨by simp, by simp⟩
  | resume id reply =>
      cases hCall : c.calls[id]? with
      | none =>
          simpa [patchStep, Calls.step, hCall] using hProgress
      | some call =>
          rcases move_of_resume c.shared call reply with
            ⟨hRequest, hMove⟩
          have hOwn :=
            hProgress call (List.mem_of_getElem? hCall)
          simp only [AllProgress, patchStep, Calls.step, hCall,
            patchProgram]
          apply Calls.forall_resumed_of_ne
          · intro place other hNe hOther
            exact
              progress_apart
                (hProgress other
                  (List.mem_of_getElem? hOther))
                (apart_of_ne hApart hNe.symm hCall hOther)
                (fun _ hNone => given_move hMove hOwn hNone)
          · have hNext := progress_move hMove hOwn
            rw [← hRequest] at hNext
            exact hNext

/-
  While no UPDATE of the route writes back a field that has
  changed since it was read, requests that set different
  fields lose nothing: what a request that has finished gave
  is what the incident holds.
-/
theorem no_lost_update
    (row : Incident)
    (events : List PatchEvent)
    (hApart : (events.filterMap started).Pairwise Apart)
    (hKeeps :
      Run.Meets patchStep KeepsOthers (untouched row) events)
    (past : List PatchEvent)
    (hPast : past <+: events)
    (call : PatchCall)
    (hCall :
      call ∈
        (Run.exec patchStep (untouched row) past).calls)
    (hFinished : call.stage = .finished)
    (field : Field)
    (value : String)
    (hGives : call.request.gives field = some value) :
    field.read
        (Run.exec patchStep (untouched row) past).shared.row =
      some value := by
  have hPrefixes :
      ∀ earlier, earlier <+: events →
        CallsApart
          (Run.exec patchStep (untouched row) earlier) := by
    intro earlier hEarlier
    unfold CallsApart
    rw [requests_exec]
    exact hApart.sublist (hEarlier.sublist.filterMap started)
  have hMeets :
      Run.Meets patchStep (fun c _ => CallsApart c)
        (untouched row) events := by
    apply (Run.meets_iff_forall_prefix _ _ _ _).mpr
    intro earlier e hEarlier
    exact
      hPrefixes earlier
        ((List.prefix_append _ _).trans hEarlier)
  have hStep :
      ∀ c e, AllProgress c → CallsApart c →
        AllProgress (patchStep c e) :=
    fun _ e hProgress hBoth =>
      allProgress_step hProgress hBoth e
  have hProgress :=
    Run.invariant_of_prefix hStep
      (fun _ hIn => absurd hIn List.not_mem_nil) hMeets hPast
  have hKept :=
    (kept_iff_meets row events).mpr hKeeps past hPast
  exact
    hKept field value
      ((hProgress call hCall).finished hFinished field value
        hGives)

/- An open incident, and two patches that set other fields. -/
def gate : Incident where
  id := 1
  orgId := "org"
  cameraId := none
  title := "Gate"
  summary := "Gate forced."
  report := some ""
  severity := "low"
  status := "open"
  createdBy := "mcp:agent"
  createdAt := 0
  updatedAt := 0
  resolvedAt := none
  resolvedBy := none

def rewording : PatchRequest :=
  .rest
    { userId := "u", orgId := "org", email := "", username := "" }
    { status := none
      severity := none
      summary := some "Gate open."
      report := none }

def raising : PatchRequest :=
  .tool "agent"
    { status := none
      severity := some "high"
      summary := none
      report := none }

def replied : Reply where
  fails := false
  now := 10

/- One patch after the other. -/
def patchedInTurn : List PatchEvent :=
  [.start raising, .resume 0 replied, .resume 0 replied,
    .resume 0 replied, .start rewording, .resume 1 replied,
    .resume 1 replied]

theorem no_lost_update_in_turn :
    Field.severity.read
        (Run.exec patchStep (untouched gate)
          patchedInTurn).shared.row =
      some "high" :=
  no_lost_update gate patchedInTurn (by decide)
    ⟨trivial, trivial, trivial, trivial, trivial, trivial,
      fun _ => by decide, trivial⟩
    patchedInTurn (List.prefix_refl _)
    { request := raising, stage := .finished } (by decide) rfl
    .severity "high" rfl

/- The route reads before the tool writes. -/
def patchedTogether : List PatchEvent :=
  [.start rewording, .start raising, .resume 0 replied,
    .resume 1 replied, .resume 1 replied, .resume 1 replied,
    .resume 0 replied]

theorem written_back_severity :
    ¬ ∀ (row : Incident) (events : List PatchEvent),
      (events.filterMap started).Pairwise Apart →
      (∀ call ∈
          (Run.exec patchStep (untouched row) events).calls,
        call.stage = .finished) →
      ∀ call ∈
          (Run.exec patchStep (untouched row) events).calls,
        ∀ field value, call.request.gives field = some value →
          field.read
              (Run.exec patchStep (untouched row)
                events).shared.row =
            some value := by
  intro hAll
  have hSeverity :=
    hAll gate patchedTogether (by decide) (by decide)
      { request := raising, stage := .finished } (by decide)
      .severity "high" rfl
  exact absurd hSeverity (by decide)

end Incidents

end SentinelCommand
