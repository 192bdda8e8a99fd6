import SentinelCommand.Incidents.Patches

/-
  Calls of the MCP tools `finalize_incident` and
  `update_incident` that run side by side.

  A finalising call reads the incident, refuses when it has
  a report, and then writes the report with an UPDATE that
  looks at nothing. A report written in between is lost.

  Main declarations:
    * `Incidents.ReportCall`, `Incidents.reportProgram`
    * `Incidents.Undisturbed`
    * `Incidents.finalized_once`
-/

--------------------
-- Calls
--------------------

namespace SentinelCommand

namespace Incidents

open Privacy

/- A call of either tool, for the org of its key. -/
inductive ReportRequest where
  | finalize
      (orgId : String)
      (incidentIdArg : Int)
      (report : String)
  | update
      (orgId keyName : String)
      (incidentIdArg : Int)
      (patch : IncidentPatch)
  deriving DecidableEq, Repr

def ReportRequest.orgId : ReportRequest → String
| .finalize orgId _ _ => orgId
| .update orgId _ _ _ => orgId

def ReportRequest.incidentIdArg : ReportRequest → Int
| .finalize _ arg _ => arg
| .update _ _ arg _ => arg

def ReportRequest.incidentId (request : ReportRequest) : Int :=
  asI32 request.incidentIdArg

/- `owned_incident`. -/
def ReportRequest.incident
    (request : ReportRequest)
    (db : Db) : Option Incident :=
  ownedIncident db request.orgId request.incidentId

/- The report of the incident, empty when it has none. -/
def ReportRequest.storedReport
    (request : ReportRequest)
    (db : Db) : String :=
  ((request.incident db).bind (·.report)).getD ""

def ReportRequest.notFound (request : ReportRequest) : String :=
  "Incident " ++ toString request.incidentIdArg ++ " not found"

def ReportRequest.alreadyReported
    (request : ReportRequest) : String :=
  "Incident " ++ toString request.incidentIdArg ++
    " already has a report. Use update_incident with the " ++
    "full revised text to change it."

/- What `finalize_incident` refuses before it reads. -/
def finalizeRefusal (report : String) : Option String :=
  if trimText report = "" then
    some "report is required"
  else if report.length > maxReportChars then
    some
      ("report too long (" ++ toString report.length ++
        " chars; max " ++ toString maxReportChars ++ ")")
  else
    none

/-
  The tables, and beside them how many reports have been
  written to an incident.
-/
structure Reports where
  db : Db
  written : Int → Nat

/-
  The statement a call waits for. Beside the stages of a
  finalising call stand the reports that were written when
  it checked, and the report that its UPDATE replaced.
-/
inductive ReportStage where
  | finalReading (report : String)
  | finalWriting (now : Int) (report : String) (seen : Nat)
  | finalRereading (replaced : String)
  | finalized (replaced : String)
  | updateReading (keyName : String) (patch : IncidentPatch)
  | updateWriting
      (now : Int)
      (left : List Statement)
      (refusal : Option String)
  | updateRereading
  | updated
  | refused (message : String)
  | failed
  deriving DecidableEq, Repr

structure ReportCall where
  request : ReportRequest
  stage : ReportStage
  deriving DecidableEq, Repr

def beginReport
    (s : Reports)
    (request : ReportRequest) : Reports × Option ReportCall :=
  match request with
  | .finalize _ _ report =>
      match finalizeRefusal report with
      | some refusal =>
          (s,
            some
              { request := request
                stage := .refused refusal })
      | none =>
          (s,
            some
              { request := request
                stage := .finalReading report })
  | .update _ keyName _ patch =>
      match toolUpdateRefusal patch with
      | some refusal =>
          (s,
            some
              { request := request
                stage := .refused refusal })
      | none =>
          (s,
            some
              { request := request
                stage := .updateReading keyName patch })

/- The report UPDATEs that have run, one more if this is. -/
def countReport
    (written : Int → Nat)
    (incidentId : Int) : Statement → Int → Nat
| .set .report _, other =>
    if other = incidentId then
      written other + 1
    else
      written other
| _, other => written other

/- An UPDATE of the incident has run. -/
def runStatement
    (s : Reports)
    (incidentId now : Int)
    (statement : Statement) : Reports where
  db := runStatements s.db incidentId now [statement]
  written := countReport s.written incidentId statement

/- What a call does next with the incident it found. -/
def finalStage
    (s : Reports)
    (request : ReportRequest)
    (report : String)
    (now : Int) : ReportStage :=
  match request.incident s.db with
  | none => .refused request.notFound
  | some existing =>
      if existing.report.getD "" ≠ "" then
        .refused request.alreadyReported
      else
        .finalWriting now report (s.written request.incidentId)

def updateStage
    (s : Reports)
    (request : ReportRequest)
    (keyName : String)
    (patch : IncidentPatch)
    (now : Int) : ReportStage :=
  match request.incident s.db with
  | none => .refused request.notFound
  | some existing =>
      .updateWriting now (toolPlan keyName existing patch).1
        (toolPlan keyName existing patch).2

/- The incident is read once more for the answer. -/
def rereadStage
    (s : Reports)
    (request : ReportRequest)
    (answered : ReportStage) : ReportStage :=
  match request.incident s.db with
  | none => .refused request.notFound
  | some _ => answered

/- The call waits for the database. -/
def ReportStage.awaits : ReportStage → Bool
| .updateWriting _ [] _ => false
| .finalized _ => false
| .updated => false
| .refused _ => false
| .failed => false
| _ => true

/- A statement comes back and the call goes on. -/
def resumeReport
    (s : Reports)
    (call : ReportCall)
    (reply : Reply) : Reports × ReportCall :=
  let go (stage : ReportStage) : ReportCall :=
    { call with stage := stage }
  if reply.fails ∧ call.stage.awaits then
    (s, go .failed)
  else
    match call.stage with
    | .finalReading report =>
        (s, go (finalStage s call.request report reply.now))
    | .finalWriting now report _ =>
        (runStatement s call.request.incidentId now
            (.set .report (trimText report)),
          go (.finalRereading (call.request.storedReport s.db)))
    | .finalRereading replaced =>
        (s,
          go (rereadStage s call.request (.finalized replaced)))
    | .updateReading keyName patch =>
        (s,
          go (updateStage s call.request keyName patch
            reply.now))
    | .updateWriting now (statement :: left) refusal =>
        (runStatement s call.request.incidentId now statement,
          go (.updateWriting now left refusal))
    | .updateWriting _ [] (some refusal) =>
        (s, go (.refused refusal))
    | .updateWriting _ [] none => (s, go .updateRereading)
    | .updateRereading =>
        (s, go (rereadStage s call.request .updated))
    | _ => (s, call)

def reportProgram :
    Calls.Program Reports ReportCall ReportRequest Reply where
  begin := beginReport
  resume := resumeReport

abbrev ReportConfig : Type :=
  Calls.Config Reports ReportCall

abbrev ReportEvent : Type :=
  Calls.Event ReportRequest Reply

def reportStep : ReportConfig → ReportEvent → ReportConfig :=
  Calls.step reportProgram

/- Any tables, before the first call. -/
def beforeReports (db : Db) : ReportConfig :=
  Calls.initial { db := db, written := fun _ => 0 }

--------------------
-- Moves
--------------------

variable {s : Reports}
variable {reply : Reply}
variable {request : ReportRequest}

/- What a call can do to its stage and to the tables. -/
inductive ReportMove
    (s : Reports)
    (reply : Reply)
    (request : ReportRequest) :
    ReportStage → ReportStage → Reports → Prop where
  | stop
      {stage : ReportStage}
      (next : ReportStage)
      (hNext :
        next = .failed ∨ next = .updated ∨
          next = .updateRereading ∨
          ∃ message, next = .refused message) :
      ReportMove s reply request stage next s
  | stay {stage : ReportStage} :
      ReportMove s reply request stage stage s
  | check
      (report : String)
      (existing : Incident)
      (hFound : request.incident s.db = some existing)
      (hEmpty : existing.report.getD "" = "") :
      ReportMove s reply request (.finalReading report)
        (.finalWriting reply.now report
          (s.written request.incidentId)) s
  | finalize
      (now : Int)
      (report : String)
      (seen : Nat)
      (hRuns : reply.fails = false) :
      ReportMove s reply request
        (.finalWriting now report seen)
        (.finalRereading (request.storedReport s.db))
        (runStatement s request.incidentId now
          (.set .report (trimText report)))
  | answer (replaced : String) :
      ReportMove s reply request (.finalRereading replaced)
        (.finalized replaced) s
  | plan
      (keyName : String)
      (patch : IncidentPatch)
      (existing : Incident) :
      ReportMove s reply request (.updateReading keyName patch)
        (.updateWriting reply.now
          (toolPlan keyName existing patch).1
          (toolPlan keyName existing patch).2) s
  | update
      (now : Int)
      (statement : Statement)
      (left : List Statement)
      (refusal : Option String) :
      ReportMove s reply request
        (.updateWriting now (statement :: left) refusal)
        (.updateWriting now left refusal)
        (runStatement s request.incidentId now statement)

theorem move_final
    (s : Reports)
    (reply : Reply)
    (request : ReportRequest)
    (report : String) :
    ReportMove s reply request (.finalReading report)
      (finalStage s request report reply.now) s := by
  unfold finalStage
  split
  · exact .stop _ (by simp)
  · rename_i existing hFound
    split
    · exact .stop _ (by simp)
    · rename_i hEmpty
      exact .check report existing hFound (not_not.mp hEmpty)

theorem move_update
    (s : Reports)
    (reply : Reply)
    (request : ReportRequest)
    (keyName : String)
    (patch : IncidentPatch) :
    ReportMove s reply request (.updateReading keyName patch)
      (updateStage s request keyName patch reply.now) s := by
  unfold updateStage
  split
  · exact .stop _ (by simp)
  · exact .plan keyName patch _

/- Every resumption is a move, of the same request. -/
theorem reportMove_of_resume
    (s : Reports)
    (call : ReportCall)
    (reply : Reply) :
    (resumeReport s call reply).2.request = call.request ∧
      ReportMove s reply call.request call.stage
        (resumeReport s call reply).2.stage
        (resumeReport s call reply).1 := by
  rcases call with ⟨request, stage⟩
  by_cases hFails : reply.fails ∧ stage.awaits
  · simp only [resumeReport, hFails, and_self, if_true]
    exact ⟨trivial, .stop _ (Or.inl rfl)⟩
  · simp only [resumeReport, hFails, if_false]
    cases stage with
    | finalReading report =>
        exact ⟨rfl, move_final s reply request report⟩
    | finalWriting now report seen =>
        refine ⟨rfl, .finalize now report seen ?_⟩
        simpa [ReportStage.awaits] using hFails
    | finalRereading replaced =>
        refine ⟨rfl, ?_⟩
        simp only [rereadStage]
        split
        · exact .stop _ (by simp)
        · exact .answer replaced
    | finalized replaced => exact ⟨rfl, .stay⟩
    | updateReading keyName patch =>
        exact ⟨rfl, move_update s reply request keyName patch⟩
    | updateWriting now left refusal =>
        cases left with
        | cons statement left =>
            exact ⟨rfl, .update now statement left refusal⟩
        | nil =>
            cases refusal with
            | none => exact ⟨rfl, .stop _ (by simp)⟩
            | some refusal => exact ⟨rfl, .stop _ (by simp)⟩
    | updateRereading =>
        refine ⟨rfl, ?_⟩
        simp only [rereadStage]
        split
        · exact .stop _ (by simp)
        · exact .stop _ (by simp)
    | updated => exact ⟨rfl, .stay⟩
    | refused message => exact ⟨rfl, .stay⟩
    | failed => exact ⟨rfl, .stay⟩

--------------------
-- Reports After a Statement
--------------------

variable {incidentId now : Int}
variable {statement : Statement}

/- The incident a request means, once a statement has run. -/
theorem incident_runStatement :
    request.incident
        (runStatement s incidentId now statement).db =
      (request.incident s.db).map
        (fun row =>
          if row.id = incidentId then
            statement.apply now row
          else
            row) :=
  ownedIncident_runStatements s.db request.orgId
    request.incidentId [statement]

theorem incident_id
    {row : Incident}
    (hFound : request.incident s.db = some row) :
    row ∈ s.db.incidents ∧ row.id = request.incidentId := by
  have hHit := List.find?_some hFound
  simp only [isIncident, Bool.and_eq_true, beq_iff_eq] at hHit
  exact ⟨List.mem_of_find?_eq_some hFound, hHit.1⟩

/- Only an UPDATE of the report counts, on its incident. -/
theorem written_runStatement
    (s : Reports)
    (incidentId now : Int)
    (statement : Statement) :
    (∃ value, statement = .set .report value ∧
        (runStatement s incidentId now statement).written =
          fun other =>
            if other = incidentId then
              s.written other + 1
            else
              s.written other) ∨
      ((∀ value, statement ≠ .set .report value) ∧
        (runStatement s incidentId now statement).written =
          s.written) := by
  cases statement with
  | stamp => exact Or.inr ⟨by simp, rfl⟩
  | clear => exact Or.inr ⟨by simp, rfl⟩
  | set field value =>
      cases field with
      | status => exact Or.inr ⟨by simp, rfl⟩
      | severity => exact Or.inr ⟨by simp, rfl⟩
      | summary => exact Or.inr ⟨by simp, rfl⟩
      | report => exact Or.inl ⟨value, rfl, rfl⟩

theorem written_le_runStatement
    (s : Reports)
    (incidentId now : Int)
    (statement : Statement)
    (other : Int) :
    s.written other ≤
      (runStatement s incidentId now statement).written
        other := by
  rcases
    written_runStatement s incidentId now statement with
    ⟨value, -, hWritten⟩ | ⟨-, hWritten⟩
  · rw [hWritten]
    dsimp only
    split <;> omega
  · exact (congrFun hWritten other).ge

/- Another statement leaves the reports alone. -/
theorem report_apply
    (hOther : ∀ value, statement ≠ .set .report value)
    (row : Incident) :
    (statement.apply now row).report = row.report := by
  cases statement with
  | stamp => rfl
  | clear => rfl
  | set field value =>
      cases field with
      | status => rfl
      | severity => rfl
      | summary => rfl
      | report => exact absurd rfl (hOther value)

/- Unless it is counted, a statement leaves the report. -/
theorem storedReport_runStatement
    (hSame :
      (runStatement s incidentId now statement).written
          request.incidentId =
        s.written request.incidentId) :
    request.storedReport
        (runStatement s incidentId now statement).db =
      request.storedReport s.db := by
  unfold ReportRequest.storedReport
  rw [incident_runStatement]
  cases hFound : request.incident s.db with
  | none => rfl
  | some row =>
      have hId := (incident_id hFound).2
      by_cases hHit : row.id = incidentId
      · simp only [Option.map_some, hHit, if_true,
          Option.bind_some]
        rcases
          written_runStatement s incidentId now statement with
          ⟨value, -, hWritten⟩ | ⟨hOther, -⟩
        · rw [hWritten, ← hId, hHit] at hSame
          simp at hSame
        · rw [report_apply hOther]
      · simp [hHit]

--------------------
-- Runs
--------------------

variable {s after : Reports}
variable {stage next : ReportStage}
variable {c : ReportConfig}

/-
  If the event is the UPDATE of a finalising call, no report
  has been written to the incident since the call checked.
-/
def Undisturbed (c : ReportConfig) (e : ReportEvent) : Prop :=
  match Calls.resumed c e with
  | some (⟨request, .finalWriting _ _ seen⟩, reply) =>
      reply.fails = false →
        c.shared.written request.incidentId = seen
  | _ => True

/- What the UPDATE of the call replaced, once it has run. -/
def ReportStage.replaced : ReportStage → Option String
| .finalRereading replaced => some replaced
| .finalized replaced => some replaced
| _ => none

/- The call at a place succeeded in finalising. -/
def Succeeded
    (c : ReportConfig)
    (place : Nat)
    (incidentId : Int)
    (replaced : String) : Prop :=
  ∃ request,
    request.incidentId = incidentId ∧
      c.calls[place]? =
        some
          { request := request, stage := .finalized replaced }

/-
  At most one call has finalised an incident, and the one
  that has replaced no report.
-/
structure FinalizedOnce (c : ReportConfig) : Prop where
  once :
    ∀ incidentId first second replaced replaced',
      Succeeded c first incidentId replaced →
        Succeeded c second incidentId replaced' →
          first = second
  nothing :
    ∀ incidentId place replaced,
      Succeeded c place incidentId replaced → replaced = ""

/- What a call knows of the reports at its stage. -/
def StageOk
    (s : Reports)
    (request : ReportRequest) : ReportStage → Prop
| .finalReading report => trimText report ≠ ""
| .finalWriting _ report seen =>
    trimText report ≠ "" ∧ seen = 0 ∧
      (request.incident s.db).isSome = true ∧
      (s.written request.incidentId = 0 →
        request.storedReport s.db = "")
| .finalRereading _ => 0 < s.written request.incidentId
| .finalized _ => 0 < s.written request.incidentId
| .updateReading _ patch => toolUpdateRefusal patch = none
| .updateWriting _ left _ =>
    ∀ value, .set .report value ∈ left → value ≠ ""
| _ => True

/- An incident with a written report has a report. -/
def ReportsHeld (s : Reports) : Prop :=
  ∀ row ∈ s.db.incidents, 0 < s.written row.id →
    row.report.getD "" ≠ ""

structure ReportsOk (c : ReportConfig) : Prop where
  held : ReportsHeld c.shared
  calls :
    ∀ call ∈ c.calls, StageOk c.shared call.request call.stage

/- What a statement leaves of what a call knows. -/
theorem stageOk_runStatement
    (hOk : StageOk s request stage)
    (incidentId now : Int)
    (statement : Statement) :
    StageOk (runStatement s incidentId now statement) request
      stage := by
  have hMore :=
    written_le_runStatement s incidentId now statement
      request.incidentId
  cases stage with
  | finalWriting now' report seen =>
      rcases hOk with ⟨hReport, hSeen, hFound, hEmpty⟩
      refine ⟨hReport, hSeen, ?_, ?_⟩
      · rw [incident_runStatement, Option.isSome_map]
        exact hFound
      · intro hNone
        rw [storedReport_runStatement (by omega)]
        exact hEmpty (by omega)
  | finalRereading replaced => exact Nat.lt_of_lt_of_le hOk hMore
  | finalized replaced => exact Nat.lt_of_lt_of_le hOk hMore
  | finalReading report => exact hOk
  | updateReading keyName patch => exact hOk
  | updateWriting now' left refusal => exact hOk
  | updateRereading => trivial
  | updated => trivial
  | refused message => trivial
  | failed => trivial

/- A report that is written is not empty. -/
theorem held_runStatement
    (hHeld : ReportsHeld s)
    (incidentId now : Int)
    {statement : Statement}
    (hText :
      ∀ value, statement = .set .report value → value ≠ "") :
    ReportsHeld (runStatement s incidentId now statement) := by
  intro row hRow hWritten
  simp only [runStatement, runStatements, setIncident,
    List.mem_map, applyAll, List.foldl_cons, List.foldl_nil,
    beq_iff_eq] at hRow
  rcases hRow with ⟨old, hOld, rfl⟩
  rcases
    written_runStatement s incidentId now statement with
    ⟨value, rfl, hCount⟩ | ⟨hOther, hCount⟩
  · split
    · simpa [Statement.apply] using hText value rfl
    · rename_i hElse
      simp only [hElse, if_false] at hWritten
      rw [hCount] at hWritten
      simp only [hElse, if_false] at hWritten
      exact hHeld old hOld hWritten
  · rw [hCount] at hWritten
    split
    · rename_i hHit
      simp only [hHit, if_true, apply_id] at hWritten
      rw [report_apply hOther]
      exact hHeld old hOld (hHit ▸ hWritten)
    · rename_i hElse
      simp only [hElse, if_false] at hWritten
      exact hHeld old hOld hWritten

/- A move keeps what every call knows. -/
theorem stageOk_move
    {other : ReportRequest}
    {held : ReportStage}
    (hMove : ReportMove s reply request stage next after)
    (hOk : StageOk s other held) :
    StageOk after other held := by
  cases hMove with
  | stop => exact hOk
  | stay => exact hOk
  | check => exact hOk
  | answer => exact hOk
  | plan => exact hOk
  | finalize now report seen =>
      exact stageOk_runStatement hOk _ _ _
  | update now statement left refusal =>
      exact stageOk_runStatement hOk _ _ _

/- What the call that moved knows next. -/
theorem stageOk_moved
    (hMove : ReportMove s reply request stage next after)
    (hHeld : ReportsHeld s)
    (hOk : StageOk s request stage) :
    StageOk after request next := by
  cases hMove with
  | stop next hNext =>
      rcases hNext with rfl | rfl | rfl | ⟨message, rfl⟩
      · trivial
      · trivial
      · trivial
      · trivial
  | stay => exact hOk
  | check report existing hFound hEmpty =>
      refine ⟨hOk, ?_, ?_, ?_⟩
      · by_contra hSome
        rcases incident_id hFound with ⟨hRow, hId⟩
        exact
          hHeld existing hRow
            (hId ▸ Nat.pos_of_ne_zero hSome) hEmpty
      · rw [hFound]
        rfl
      · intro _
        simpa [ReportRequest.storedReport, hFound] using hEmpty
  | finalize now report seen =>
      simp [StageOk, runStatement, countReport]
  | answer replaced => exact hOk
  | plan keyName patch existing =>
      intro value hMem
      have hGiven := gives_of_set_mem hMem
      intro hEmpty
      cases hReport : patch.report with
      | none => simp [PatchRequest.gives, hReport] at hGiven
      | some text =>
          have hTrim : trimText text = "" := by
            simpa [PatchRequest.gives, hReport, hEmpty]
              using hGiven
          have hRefused : toolUpdateRefusal patch = none := hOk
          simp only [toolUpdateRefusal, hReport] at hRefused
          split at hRefused
          · cases hRefused
          · split at hRefused
            · cases hRefused
            · simp [hTrim] at hRefused
  | update now statement left refusal =>
      exact fun value hMem =>
        hOk value (List.mem_cons_of_mem statement hMem)

/- A move leaves incidents that have a report with one. -/
theorem held_move
    (hMove : ReportMove s reply request stage next after)
    (hHeld : ReportsHeld s)
    (hOk : StageOk s request stage) :
    ReportsHeld after := by
  cases hMove with
  | stop => exact hHeld
  | stay => exact hHeld
  | check => exact hHeld
  | answer => exact hHeld
  | plan => exact hHeld
  | finalize now report seen =>
      apply held_runStatement hHeld
      intro value hValue
      cases hValue
      exact hOk.1
  | update now statement left refusal =>
      apply held_runStatement hHeld
      rintro value rfl
      exact hOk value List.mem_cons_self

theorem reportsOk_start
    (hOk : ReportsOk c)
    (request : ReportRequest) :
    ReportsOk (reportStep c (.start request)) := by
  have hSame : (beginReport c.shared request).1 = c.shared := by
    cases request <;> simp only [beginReport] <;> split <;> rfl
  have hNew :
      ∀ call ∈ (beginReport c.shared request).2,
        StageOk c.shared call.request call.stage := by
    intro call hCall
    cases request with
    | finalize orgId arg report =>
        simp only [beginReport] at hCall
        split at hCall
        · cases hCall
          trivial
        · rename_i hPass
          cases hCall
          intro hBlank
          simp [finalizeRefusal, hBlank] at hPass
    | update orgId keyName arg patch =>
        simp only [beginReport] at hCall
        split at hCall
        · cases hCall
          trivial
        · rename_i hPass
          cases hCall
          exact hPass
  constructor
  · simpa only [reportStep, Calls.step, reportProgram, hSame]
      using hOk.held
  · intro call hCall
    simp only [reportStep, Calls.step, reportProgram, hSame]
      at hCall ⊢
    rcases List.mem_append.mp hCall with hOld | hLast
    · exact hOk.calls call hOld
    · exact hNew call (Option.mem_toList.mp hLast)

theorem reportsOk_step
    (c : ReportConfig)
    (e : ReportEvent)
    (hOk : ReportsOk c) :
    ReportsOk (reportStep c e) := by
  cases e with
  | start request => exact reportsOk_start hOk request
  | resume id reply =>
      simp only [reportStep, Calls.step]
      cases hCall : c.calls[id]? with
      | none => exact hOk
      | some call =>
          have hIn := List.mem_of_getElem? hCall
          have hKnown := hOk.calls call hIn
          rcases reportMove_of_resume c.shared call reply with
            ⟨hRequest, hMove⟩
          constructor
          · exact held_move hMove hOk.held hKnown
          · apply Calls.forall_resumed
            · exact fun other hOther =>
                stageOk_move hMove (hOk.calls other hOther)
            · have hNext :=
                stageOk_moved hMove hOk.held hKnown
              simp only [reportProgram]
              rw [hRequest]
              exact hNext

theorem reportsOk_before (db : Db) :
    ReportsOk (beforeReports db) where
  held := by
    intro row _ hWritten
    exact absurd hWritten (Nat.lt_irrefl 0)
  calls := by
    intro call hCall
    exact absurd hCall List.not_mem_nil

--------------------
-- Written Once
--------------------

/- The same of the calls whose UPDATE has run. -/
structure WrittenOnce (c : ReportConfig) : Prop where
  once :
    ∀ (first second : Nat) (call other : ReportCall),
      c.calls[first]? = some call →
        c.calls[second]? = some other →
          call.request.incidentId = other.request.incidentId →
            call.stage.replaced ≠ none →
              other.stage.replaced ≠ none → first = second
  nothing :
    ∀ (place : Nat) (call : ReportCall) (replaced : String),
      c.calls[place]? = some call →
        call.stage.replaced = some replaced → replaced = ""

/- Calls that had run their UPDATE before, at their places. -/
theorem writtenOnce_of_carried
    {c' : ReportConfig}
    (hOnce : WrittenOnce c)
    (hBack :
      ∀ (place : Nat) (call : ReportCall),
        c'.calls[place]? = some call →
          call.stage.replaced ≠ none →
            ∃ old,
              c.calls[place]? = some old ∧
                old.request = call.request ∧
                old.stage.replaced = call.stage.replaced) :
    WrittenOnce c' where
  once := by
    intro first second call other hCall hOther hSame hRan hRan'
    rcases hBack first call hCall hRan with
      ⟨old, hOld, hRequest, hReplaced⟩
    rcases hBack second other hOther hRan' with
      ⟨old', hOld', hRequest', hReplaced'⟩
    apply hOnce.once first second old old' hOld hOld'
    · rw [hRequest, hRequest', hSame]
    · rwa [hReplaced]
    · rwa [hReplaced']
  nothing := by
    intro place call replaced hCall hSome
    have hRan : call.stage.replaced ≠ none := by
      rw [hSome]
      exact Option.some_ne_none replaced
    rcases hBack place call hCall hRan with
      ⟨old, hOld, -, hReplaced⟩
    exact
      hOnce.nothing place old replaced hOld
        (hReplaced.trans hSome)

/- The one call whose UPDATE ran replaced nothing. -/
theorem writtenOnce_of_written
    {id : Nat}
    {next : ReportCall}
    (hOnce : WrittenOnce c)
    (hAlone :
      ∀ (place : Nat) (other : ReportCall),
        c.calls[place]? = some other →
          other.request.incidentId = next.request.incidentId →
            other.stage.replaced = none)
    (hNothing : next.stage.replaced = some "")
    (s : Reports) :
    WrittenOnce
      { shared := s, calls := c.calls.set id next } where
  once := by
    intro first second call other hCall hOther hSame hRan hRan'
    rcases Calls.cases_of_resumed hCall with
      ⟨rfl, rfl⟩ | ⟨-, hOld⟩
    · rcases Calls.cases_of_resumed hOther with
        ⟨rfl, -⟩ | ⟨-, hOld'⟩
      · rfl
      · exact
          absurd (hAlone second other hOld' hSame.symm) hRan'
    · rcases Calls.cases_of_resumed hOther with
        ⟨rfl, rfl⟩ | ⟨-, hOld'⟩
      · exact absurd (hAlone first call hOld hSame) hRan
      · exact
          hOnce.once first second call other hOld hOld' hSame
            hRan hRan'
  nothing := by
    intro place call replaced hCall hSome
    rcases Calls.cases_of_resumed hCall with
      ⟨rfl, rfl⟩ | ⟨-, hOld⟩
    · exact Option.some.inj (hSome.symm.trans hNothing)
    · exact hOnce.nothing place call replaced hOld hSome

/- Only an UPDATE begins to replace a report. -/
theorem replaced_of_move
    (hMove : ReportMove s reply request stage next after) :
    (∃ now report seen,
        stage = .finalWriting now report seen ∧
          reply.fails = false ∧
          next.replaced = some (request.storedReport s.db)) ∨
      ∀ replaced,
        next.replaced = some replaced →
          stage.replaced = some replaced := by
  cases hMove with
  | finalize now report seen hRuns =>
      exact Or.inl ⟨now, report, seen, rfl, hRuns, rfl⟩
  | stop next hNext =>
      right
      rcases hNext with rfl | rfl | rfl | ⟨message, rfl⟩
      · simp [ReportStage.replaced]
      · simp [ReportStage.replaced]
      · simp [ReportStage.replaced]
      · simp [ReportStage.replaced]
  | stay => exact Or.inr (fun _ hSame => hSame)
  | check => exact Or.inr (by simp [ReportStage.replaced])
  | answer => exact Or.inr (by simp [ReportStage.replaced])
  | plan => exact Or.inr (by simp [ReportStage.replaced])
  | update => exact Or.inr (by simp [ReportStage.replaced])

/- A call whose UPDATE has run wrote a report. -/
theorem written_of_replaced
    (hOk : StageOk s request stage)
    (hRan : stage.replaced ≠ none) :
    0 < s.written request.incidentId := by
  cases stage with
  | finalRereading replaced => exact hOk
  | finalized replaced => exact hOk
  | finalReading report => exact absurd rfl hRan
  | finalWriting now report seen => exact absurd rfl hRan
  | updateReading keyName patch => exact absurd rfl hRan
  | updateWriting now left refusal => exact absurd rfl hRan
  | updateRereading => exact absurd rfl hRan
  | updated => exact absurd rfl hRan
  | refused message => exact absurd rfl hRan
  | failed => exact absurd rfl hRan

/- A call that begins has not written. -/
theorem replaced_begun
    (s : Reports)
    (request : ReportRequest) :
    ∀ call ∈ (beginReport s request).2,
      call.stage.replaced = none := by
  intro call hCall
  cases request <;> simp only [beginReport] at hCall <;>
    split at hCall <;> cases hCall <;> rfl

theorem writtenOnce_start
    (hOnce : WrittenOnce c)
    (request : ReportRequest) :
    WrittenOnce (reportStep c (.start request)) := by
  have hNone := replaced_begun c.shared request
  apply writtenOnce_of_carried hOnce
  intro place call hCall hRan
  simp only [reportStep, Calls.step, reportProgram] at hCall
  cases hNew : (beginReport c.shared request).2 with
  | none =>
      rw [hNew, Option.toList_none, List.append_nil] at hCall
      exact ⟨call, hCall, rfl, rfl⟩
  | some new =>
      rw [hNew, Option.toList_some] at hCall
      rcases Calls.cases_of_started hCall with hOld | rfl
      · exact ⟨call, hOld, rfl, rfl⟩
      · exact absurd (hNone call hNew) hRan

/- An UPDATE that nothing disturbed replaces nothing. -/
theorem writtenOnce_step
    (c : ReportConfig)
    (e : ReportEvent)
    (hOk : ReportsOk c)
    (hOnce : WrittenOnce c)
    (hQuiet : Undisturbed c e) :
    WrittenOnce (reportStep c e) := by
  cases e with
  | start request => exact writtenOnce_start hOnce request
  | resume id reply =>
      simp only [reportStep, Calls.step]
      cases hCall : c.calls[id]? with
      | none => exact hOnce
      | some call =>
          have hKnown :=
            hOk.calls call (List.mem_of_getElem? hCall)
          rcases reportMove_of_resume c.shared call reply with
            ⟨hRequest, hMove⟩
          rcases replaced_of_move hMove with
            ⟨now, report, seen, hStage, hRuns, hNow⟩ | hBefore
          · rw [hStage] at hKnown
            rcases hKnown with ⟨-, hSeen, -, hEmpty⟩
            have hNone :
                c.shared.written call.request.incidentId =
                  0 := by
              rcases call with ⟨request, stage⟩
              dsimp only at hStage
              subst hStage
              simp only [Undisturbed, Calls.resumed, hCall,
                Option.map_some] at hQuiet
              exact (hQuiet hRuns).trans hSeen
            apply writtenOnce_of_written hOnce
            · -- A call that has written would have counted.
              intro place other hOther hSame
              by_contra hRan
              have hWrote :=
                written_of_replaced
                  (hOk.calls other
                    (List.mem_of_getElem? hOther)) hRan
              rw [hSame] at hWrote
              simp only [reportProgram, hRequest, hNone,
                Nat.lt_irrefl] at hWrote
            · exact hNow.trans (congrArg some (hEmpty hNone))
          · apply writtenOnce_of_carried hOnce
            intro place other hOther hRan
            rcases Calls.cases_of_resumed hOther with
              ⟨rfl, rfl⟩ | ⟨-, hOld⟩
            · refine ⟨call, hCall, hRequest.symm, ?_⟩
              rcases Option.ne_none_iff_exists'.mp hRan with
                ⟨replaced, hSome⟩
              exact (hBefore replaced hSome).trans hSome.symm
            · exact ⟨other, hOld, rfl, rfl⟩

theorem finalizedOnce_of_writtenOnce
    (hOnce : WrittenOnce c) :
    FinalizedOnce c where
  once := by
    rintro incidentId first second replaced replaced'
      ⟨request, rfl, hFirst⟩ ⟨request', hSame, hSecond⟩
    exact
      hOnce.once first second _ _ hFirst hSecond hSame.symm
        (Option.some_ne_none replaced)
        (Option.some_ne_none replaced')
  nothing := by
    rintro incidentId place replaced ⟨request, -, hCall⟩
    exact hOnce.nothing place _ replaced hCall rfl

/-
  While no report is written between the check and the
  UPDATE of a finalising call, at most one call finalises an
  incident, and it replaces no report.
-/
theorem finalized_once
    (db : Db)
    (events : List ReportEvent)
    (hQuiet :
      Run.Meets reportStep Undisturbed (beforeReports db)
        events) :
    ∀ past, past <+: events →
      FinalizedOnce
        (Run.exec reportStep (beforeReports db) past) := by
  intro past hPrefix
  apply finalizedOnce_of_writtenOnce
  have hStep :
      ∀ c e, ReportsOk c ∧ WrittenOnce c → Undisturbed c e →
        ReportsOk (reportStep c e) ∧
          WrittenOnce (reportStep c e) :=
    fun c e hNow hStill =>
      ⟨reportsOk_step c e hNow.1,
        writtenOnce_step c e hNow.1 hNow.2 hStill⟩
  have hStart : WrittenOnce (beforeReports db) := by
    constructor
    · intro first second call other hCall
      simp [beforeReports, Calls.initial] at hCall
    · intro place call replaced hCall
      simp [beforeReports, Calls.initial] at hCall
  have hEnd :=
    Run.invariant_of_prefix hStep
      ⟨reportsOk_before db, hStart⟩ hQuiet hPrefix
  exact hEnd.2

/- An incident that was filed and has no report yet. -/
def filedIncident : Incident where
  id := 7
  orgId := "org"
  cameraId := none
  title := "Gate open"
  summary := "North gate found open."
  report := some ""
  severity := "low"
  status := "open"
  createdBy := "mcp:agent"
  createdAt := 0
  updatedAt := 0
  resolvedAt := none
  resolvedBy := none

def filedDb : Db :=
  { Db.empty with incidents := [filedIncident] }

/- A statement runs. -/
def ran : Reply where
  fails := false
  now := 1

/- Two runs of the agent finalise the incident. -/
def finalizeBoth : List ReportEvent :=
  [.start (.finalize "org" 7 "A cat."),
    .start (.finalize "org" 7 "A prowler.")]

/- The second reads after the first has written. -/
def finalizedInTurn : List ReportEvent :=
  finalizeBoth ++
    [.resume 0 ran, .resume 0 ran, .resume 0 ran,
      .resume 1 ran]

theorem finalized_once_in_turn :
    FinalizedOnce
      (Run.exec reportStep (beforeReports filedDb)
        finalizedInTurn) :=
  finalized_once filedDb finalizedInTurn
    ⟨trivial, trivial, trivial, fun _ => rfl, trivial, trivial,
      trivial⟩
    finalizedInTurn (List.prefix_refl _)

/- Both read before either writes. -/
def finalizedTogether : List ReportEvent :=
  finalizeBoth ++
    [.resume 0 ran, .resume 1 ran, .resume 0 ran,
      .resume 0 ran, .resume 1 ran, .resume 1 ran]

/- The second call succeeds too, over the first report. -/
theorem finalized_twice :
    ¬ ∀ (db : Db) (events : List ReportEvent),
      FinalizedOnce
        (Run.exec reportStep (beforeReports db) events) := by
  intro hAll
  have hLost :
      Succeeded
        (Run.exec reportStep (beforeReports filedDb)
          finalizedTogether)
        1 7 "A cat." :=
    ⟨.finalize "org" 7 "A prowler.", by decide, by decide⟩
  exact
    absurd
      ((hAll filedDb finalizedTogether).nothing 7 1 "A cat."
        hLost)
      (by decide)

/-
  A report written in between is lost: the call goes on, is
  answered, and has replaced it.
-/
theorem disturbed_replaces
    (hOk : ReportsOk c)
    {e : ReportEvent}
    (hLate : ¬ Undisturbed c e) :
    ∃ id,
      ¬ FinalizedOnce
        (reportStep (reportStep c e) (.resume id ran)) := by
  unfold Undisturbed at hLate
  split at hLate
  · rename_i request now report seen reply hResumed
    simp only [Classical.not_imp] at hLate
    rcases hLate with ⟨hRuns, hMore⟩
    cases e with
    | start what => cases hResumed
    | resume id choice =>
        rcases Option.map_eq_some_iff.mp hResumed with
          ⟨call, hCall, hSame⟩
        cases hSame
        have hKnown :=
          hOk.calls _ (List.mem_of_getElem? hCall)
        rcases hKnown with ⟨-, hSeen, hFound, -⟩
        rcases Option.isSome_iff_exists.mp hFound with
          ⟨row, hRow⟩
        dsimp only at hRow
        rcases incident_id hRow with ⟨hIn, hId⟩
        have hHeld : row.report.getD "" ≠ "" := by
          apply hOk.held row hIn
          rw [hId]
          omega
        have hWrite :
            reportStep c (.resume id reply) =
              { shared :=
                  runStatement c.shared request.incidentId now
                    (.set .report (trimText report))
                calls :=
                  c.calls.set id
                    { request := request
                      stage :=
                        .finalRereading
                          (request.storedReport
                            c.shared.db) } } := by
          simp only [reportStep, Calls.step, hCall,
            reportProgram, resumeReport, hRuns,
            Bool.false_eq_true, false_and, if_false]
        have hLt := (List.getElem?_eq_some_iff.mp hCall).1
        have hDone :
            Succeeded
              (reportStep (reportStep c (.resume id reply))
                (.resume id ran))
              id request.incidentId
              (request.storedReport c.shared.db) := by
          refine ⟨request, rfl, ?_⟩
          rw [hWrite]
          simp only [reportStep, Calls.step,
            List.getElem?_set_self hLt, List.set_set,
            reportProgram, resumeReport, rereadStage, ran,
            incident_runStatement, hRow, Option.map_some,
            Bool.false_eq_true, false_and, if_false]
        refine ⟨id, fun hOnce => hHeld ?_⟩
        have hNone := hOnce.nothing _ _ _ hDone
        simpa [ReportRequest.storedReport, hRow] using hNone
  · exact absurd trivial hLate

end Incidents

end SentinelCommand
