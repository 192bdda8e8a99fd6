import SentinelCommand.Incidents.Patches
import SentinelCommand.Mcp.Arguments

/-
  What the MCP tool `update_incident` leaves of an incident
  when it refuses a call.

  The status, the severity and a blank report are looked at
  before the first statement. The summary, and the length of
  the report, are looked at between the UPDATEs, when those
  of the earlier fields have run.

  Main declarations:
    * `Incidents.updateIncident`
    * `Incidents.all_or_nothing_iff`
    * `Incidents.blank_summary_keeps_severity`
-/

--------------------
-- The Tool
--------------------

namespace SentinelCommand

namespace Incidents

open Privacy Mcp

/- The fields a call sets. -/
def updatePatch (args : Fields) : IncidentPatch where
  status := optStr args "status"
  severity := optStr args "severity"
  summary := optStr args "summary"
  report := optStr args "report"

/- The tables, and the text of the error, if there is one. -/
def updateIncident
    (db : Db)
    (orgId keyName : String)
    (args : Fields)
    (now : Int) : Db × Option String :=
  toolUpdateIncident db orgId keyName
    (intOr args "incident_id" 0) (updatePatch args) now

/- The incident that a call is about. -/
def updatedIncident
    (db : Db)
    (orgId : String)
    (args : Fields) : Option Incident :=
  ownedIncident db orgId (asI32 (intOr args "incident_id" 0))

/-
  A refused call has changed nothing, and one that is not
  refused has set every field it was given. Texts are stored
  trimmed.
-/
def AllOrNothing
    (db : Db)
    (orgId keyName : String)
    (args : Fields)
    (now : Int) : Prop :=
  let after := updateIncident db orgId keyName args now
  (after.2 ≠ none → after.1 = db) ∧
    (after.2 = none →
      ∀ field value,
        (PatchRequest.tool keyName (updatePatch args)).gives
            field = some value →
          ∃ row, updatedIncident after.1 orgId args = some row ∧
            field.read row = some value)

/- The summary is blank or too long. -/
def SummaryRefused (patch : IncidentPatch) : Prop :=
  ∃ summary, patch.summary = some summary ∧
    (trimText summary = "" ∨ summary.length > maxSummaryChars)

def ReportTooLong (patch : IncidentPatch) : Prop :=
  ∃ report, patch.report = some report ∧
    report.length > maxReportChars

/-
  The call is past the first checks and has found its
  incident, and what is refused is a text that comes after a
  field that was given.
-/
def RefusedLate
    (db : Db)
    (orgId : String)
    (args : Fields) : Prop :=
  let patch := updatePatch args
  toolUpdateRefusal patch = none ∧
    updatedIncident db orgId args ≠ none ∧
      (SummaryRefused patch ∧
          (patch.status ≠ none ∨ patch.severity ≠ none) ∨
        ¬ SummaryRefused patch ∧ ReportTooLong patch ∧
          (patch.status ≠ none ∨ patch.severity ≠ none ∨
            patch.summary ≠ none))

--------------------
-- Statements of a Refused Call
--------------------

variable {db : Db}
variable {orgId keyName : String}
variable {incidentId now : Int}
variable {patch : IncidentPatch}
variable {found : Incident}

theorem summaryStatements_error_iff :
    (∃ refusal, summaryStatements patch.summary =
        .error refusal) ↔
      SummaryRefused patch := by
  unfold SummaryRefused
  cases hSummary : patch.summary with
  | none => simp [summaryStatements]
  | some summary =>
      simp only [summaryStatements, Option.some.injEq,
        exists_eq_left']
      split
      · rename_i hBlank
        exact iff_of_true ⟨_, rfl⟩ (Or.inl hBlank)
      · rename_i hText
        split
        · rename_i hLong
          exact iff_of_true ⟨_, rfl⟩ (Or.inr hLong)
        · rename_i hFits
          simp [hText, hFits]

theorem reportStatements_error_iff :
    (∃ refusal, reportStatements patch.report =
        .error refusal) ↔
      ReportTooLong patch := by
  unfold ReportTooLong
  cases hReport : patch.report with
  | none => simp [reportStatements]
  | some report =>
      simp only [reportStatements, Option.some.injEq,
        exists_eq_left']
      split
      · rename_i hLong
        exact iff_of_true ⟨_, rfl⟩ hLong
      · rename_i hFits
        simp [hFits]

/- The refusal of an accepted call is that of its plan. -/
theorem refusal_toolUpdateIncident
    (hRefusal : toolUpdateRefusal patch = none)
    (hFound :
      ownedIncident db orgId (asI32 incidentId) =
        some found) :
    (toolUpdateIncident db orgId keyName incidentId patch
        now).2 =
      (toolPlan keyName found patch).2 := by
  simp only [toolUpdateIncident, hRefusal, hFound, toolPlan,
    toolSetSummary_eq_statements]
  cases summaryStatements patch.summary with
  | error refusal => rfl
  | ok second =>
      simp only [Except.map, toolSetReport_eq_statements]
      cases reportStatements patch.report with
      | error refusal => rfl
      | ok third => rfl

theorem statusStatements_ne_nil_iff
    {existing : Incident}
    {status : Option String} :
    statusStatements keyName existing status ≠ [] ↔
      status ≠ none := by
  cases status with
  | none => simp [statusStatements]
  | some status => simp [statusStatements]

theorem severityStatements_ne_nil_iff
    {severity : Option String} :
    severityStatements severity ≠ [] ↔ severity ≠ none := by
  cases severity with
  | none => simp [severityStatements]
  | some severity => simp [severityStatements]

theorem summaryStatements_ne_nil_iff
    {summary : Option String}
    {statements : List Statement}
    (hStatements : summaryStatements summary = .ok statements) :
    statements ≠ [] ↔ summary ≠ none := by
  cases summary with
  | none =>
      cases hStatements
      simp
  | some summary =>
      simp only [summaryStatements] at hStatements
      split at hStatements
      · cases hStatements
      · split at hStatements
        · cases hStatements
        · cases hStatements
          simp

/- Statements run before the summary is looked at. -/
theorem firstStatements_ne_nil_iff :
    statusStatements keyName found patch.status ++
        severityStatements patch.severity ≠ [] ↔
      patch.status ≠ none ∨ patch.severity ≠ none := by
  rw [Ne, List.append_eq_nil_iff, not_and_or]
  exact
    or_congr statusStatements_ne_nil_iff
      severityStatements_ne_nil_iff

/- A late refusal is one that comes after a statement. -/
theorem late_iff_plan :
    ((toolPlan keyName found patch).2 ≠ none ∧
        (toolPlan keyName found patch).1 ≠ []) ↔
      (SummaryRefused patch ∧
          (patch.status ≠ none ∨ patch.severity ≠ none) ∨
        ¬ SummaryRefused patch ∧ ReportTooLong patch ∧
          (patch.status ≠ none ∨ patch.severity ≠ none ∨
            patch.summary ≠ none)) := by
  have hFirst :
      statusStatements keyName found patch.status ++
          severityStatements patch.severity ≠ [] ↔
        patch.status ≠ none ∨ patch.severity ≠ none :=
    firstStatements_ne_nil_iff
  rw [← summaryStatements_error_iff,
    ← reportStatements_error_iff]
  cases hSummary : summaryStatements patch.summary with
  | error refusal =>
      simp only [toolPlan, hSummary]
      constructor
      · rintro ⟨-, hSome⟩
        exact Or.inl ⟨⟨refusal, rfl⟩, hFirst.mp hSome⟩
      · rintro (⟨-, hGiven⟩ | ⟨hNot, -⟩)
        · exact ⟨Option.some_ne_none refusal, hFirst.mpr hGiven⟩
        · exact absurd ⟨refusal, rfl⟩ hNot
  | ok second =>
      have hSecond := summaryStatements_ne_nil_iff hSummary
      cases hReport : reportStatements patch.report with
      | error refusal =>
          simp only [toolPlan, hSummary, hReport]
          rw [Ne, Ne, List.append_eq_nil_iff, not_and_or]
          constructor
          · rintro ⟨-, hSome | hSome⟩
            · have hGiven := hFirst.mp hSome
              exact
                Or.inr
                  ⟨by simp, ⟨refusal, rfl⟩,
                    hGiven.imp_right Or.inl⟩
            · have hGiven := hSecond.mp hSome
              exact
                Or.inr
                  ⟨by simp, ⟨refusal, rfl⟩,
                    Or.inr (Or.inr hGiven)⟩
          · rintro (⟨⟨_, hNot⟩, -⟩ | ⟨-, -, hGiven⟩)
            · cases hNot
            · refine ⟨Option.some_ne_none refusal, ?_⟩
              rcases hGiven with hStatus | hSeverity | hText
              · exact Or.inl (hFirst.mpr (Or.inl hStatus))
              · exact Or.inl (hFirst.mpr (Or.inr hSeverity))
              · exact Or.inr (hSecond.mpr hText)
      | ok third =>
          simp only [toolPlan, hSummary, hReport]
          constructor
          · rintro ⟨hNot, -⟩
            exact absurd rfl hNot
          · rintro (⟨⟨_, hNot⟩, -⟩ | ⟨-, ⟨_, hNot⟩, -⟩)
            · cases hNot
            · cases hNot

--------------------
-- The Row After the Statements
--------------------

variable {found row : Incident}
variable {statements : List Statement}

theorem apply_updatedAt
    (statement : Statement)
    (row : Incident) :
    (statement.apply now row).updatedAt = now := by
  cases statement with
  | stamp => rfl
  | clear => rfl
  | set field value => cases field <;> rfl

theorem applyAll_updatedAt
    (hSome : statements ≠ []) :
    (applyAll now statements row).updatedAt = now := by
  induction statements generalizing row with
  | nil => exact absurd rfl hSome
  | cons statement rest ih =>
      cases rest with
      | nil => exact apply_updatedAt statement row
      | cons next rest => exact ih (List.cons_ne_nil next rest)

/-
  A field has the one value that the statements set it to,
  or that it had.
-/
theorem read_applyAll
    {field : Field}
    {value : String}
    (hOnly :
      ∀ other, .set field other ∈ statements → other = value)
    (hSet :
      .set field value ∈ statements ∨
        field.read row = some value) :
    field.read (applyAll now statements row) = some value := by
  induction statements generalizing row with
  | nil => exact hSet.resolve_left List.not_mem_nil
  | cons statement rest ih =>
      apply ih
      · intro other hOther
        exact hOnly other (List.mem_cons_of_mem statement hOther)
      · rcases hSet with hSet | hRead
        · rcases List.mem_cons.mp hSet with rfl | hRest
          · right
            rw [read_apply_set, if_pos rfl]
          · exact Or.inl hRest
        · refine Or.inr ?_
          cases statement with
          | stamp => exact (read_apply_stamp _).trans hRead
          | clear => exact read_apply_clear.trans hRead
          | set other set =>
              rw [read_apply_set]
              split
              · rename_i hField
                subst hField
                rw [hOnly set List.mem_cons_self]
              · exact hRead

/- The incident of the call, once statements have run. -/
theorem ownedIncident_ran
    (hFound : ownedIncident db orgId incidentId = some found) :
    ownedIncident (runStatements db incidentId now statements)
        orgId incidentId =
      some (applyAll now statements found) := by
  have hId : found.id = incidentId :=
    (mem_of_ownedIncident hFound).2.1
  rw [ownedIncident_runStatements, hFound, Option.map_some,
    if_pos hId]

/- A statement that has run shows in `updated_at`. -/
theorem runStatements_ne
    (hFound : ownedIncident db orgId incidentId = some found)
    (hSome : statements ≠ [])
    (hNow : now ≠ found.updatedAt) :
    runStatements db incidentId now statements ≠ db := by
  intro hSame
  have hRow :
      ownedIncident (runStatements db incidentId now statements)
          orgId incidentId =
        some (applyAll now statements found) :=
    ownedIncident_ran hFound
  rw [hSame, hFound, Option.some.injEq] at hRow
  apply hNow
  rw [hRow]
  exact (applyAll_updatedAt hSome).symm

--------------------
-- When a Refusal Changes Nothing
--------------------

variable {args : Fields}

/- An accepted call sets what it was given. -/
theorem given_held
    {patch : IncidentPatch}
    {incidentId now : Int}
    (hFound : ownedIncident db orgId incidentId = some found)
    (hAccepted : (toolPlan keyName found patch).2 = none)
    {field : Field}
    {value : String}
    (hGives :
      (PatchRequest.tool keyName patch).gives field =
        some value) :
    ∃ row,
      ownedIncident
          (runStatements db incidentId now
            (toolPlan keyName found patch).1)
          orgId incidentId =
        some row ∧
      field.read row = some value := by
  refine ⟨_, ownedIncident_ran hFound, ?_⟩
  apply read_applyAll
  · intro other hOther
    have hGiven := gives_of_set_mem hOther
    rw [hGives] at hGiven
    exact (Option.some.inj hGiven).symm
  · exact Or.inl (set_mem_of_gives hAccepted hGives)

/- A call that gets past the first checks. -/
theorem updateIncident_found
    (hRefusal : toolUpdateRefusal (updatePatch args) = none)
    (hFound : updatedIncident db orgId args = some found)
    (now : Int) :
    updateIncident db orgId keyName args now =
      (runStatements db (asI32 (intOr args "incident_id" 0)) now
          (toolPlan keyName found (updatePatch args)).1,
        (toolPlan keyName found (updatePatch args)).2) := by
  unfold updateIncident
  exact
    Prod.ext
      (toolUpdateIncident_eq_statements hRefusal hFound)
      (refusal_toolUpdateIncident hRefusal hFound)

/- A call that the first checks refuse. -/
theorem updateIncident_early
    (hRefused :
      toolUpdateRefusal (updatePatch args) ≠ none ∨
        updatedIncident db orgId args = none)
    (keyName : String)
    (now : Int) :
    (updateIncident db orgId keyName args now).1 = db ∧
      (updateIncident db orgId keyName args now).2 ≠ none := by
  refine ⟨toolUpdateIncident_refused hRefused, ?_⟩
  unfold updateIncident toolUpdateIncident
  cases hRefusal : toolUpdateRefusal (updatePatch args) with
  | some refusal => exact nofun
  | none =>
      have hNone :
          ownedIncident db orgId
              (asI32 (intOr args "incident_id" 0)) = none :=
        hRefused.resolve_left (fun hSome => hSome hRefusal)
      simp only [hNone]
      exact nofun

theorem refusedLate_iff
    (hRefusal : toolUpdateRefusal (updatePatch args) = none)
    (hFound : updatedIncident db orgId args = some found)
    (keyName : String) :
    RefusedLate db orgId args ↔
      (toolPlan keyName found (updatePatch args)).2 ≠ none ∧
        (toolPlan keyName found (updatePatch args)).1 ≠ [] := by
  rw [late_iff_plan]
  constructor
  · rintro ⟨-, -, hLate⟩
    exact hLate
  · intro hLate
    refine ⟨hRefusal, ?_, hLate⟩
    rw [hFound]
    exact nofun

/- An early refusal, or an accepted call. -/
theorem allOrNothing_of_not_late
    (hLate : ¬ RefusedLate db orgId args)
    (now : Int) :
    AllOrNothing db orgId keyName args now := by
  by_cases hRefused :
      toolUpdateRefusal (updatePatch args) ≠ none ∨
        updatedIncident db orgId args = none
  · rcases updateIncident_early hRefused keyName now with
      ⟨hSame, hError⟩
    exact ⟨fun _ => hSame, fun hNone => absurd hNone hError⟩
  · rw [not_or, not_not] at hRefused
    rcases hRefused with ⟨hRefusal, hSome⟩
    rcases Option.ne_none_iff_exists'.mp hSome with
      ⟨found, hFound⟩
    rw [refusedLate_iff hRefusal hFound keyName, not_and,
      not_not] at hLate
    simp only [AllOrNothing,
      updateIncident_found hRefusal hFound]
    constructor
    · intro hError
      rw [hLate hError]
      exact runStatements_nil db
    · intro hAccepted field value hGives
      exact given_held hFound hAccepted hGives

/- A late refusal shows at any other time. -/
theorem not_allOrNothing_of_late
    (hLate : RefusedLate db orgId args) :
    ∃ now, ¬ AllOrNothing db orgId keyName args now := by
  rcases Option.ne_none_iff_exists'.mp hLate.2.1 with
    ⟨found, hFound⟩
  rcases
    (refusedLate_iff hLate.1 hFound keyName).mp hLate with
    ⟨hError, hSome⟩
  refine ⟨found.updatedAt + 1, ?_⟩
  rintro ⟨hNothing, -⟩
  rw [updateIncident_found hLate.1 hFound] at hNothing
  exact
    runStatements_ne hFound hSome (by omega) (hNothing hError)

/-
  A call changes nothing when it is refused, and sets all it
  was given when it is not, exactly when it is not refused
  for a text that comes after another field.
-/
theorem all_or_nothing_iff
    (db : Db)
    (orgId keyName : String)
    (args : Fields) :
    (∀ now, AllOrNothing db orgId keyName args now) ↔
      ¬ RefusedLate db orgId args := by
  constructor
  · intro hAll hLate
    rcases not_allOrNothing_of_late hLate with ⟨now, hNot⟩
    exact hNot (hAll now)
  · exact fun hLate now => allOrNothing_of_not_late hLate now

/- A severity, and a summary that is all blanks. -/
def raisedAndBlanked : Fields :=
  [("incident_id", .integer 1), ("severity", .string "high"),
    ("summary", .string " ")]

/- The summary is refused, and the severity has changed. -/
theorem blank_summary_keeps_severity :
    ¬ ∀ (db : Db) (orgId keyName : String) (args : Fields)
        (now : Int),
      (updateIncident db orgId keyName args now).2 ≠ none →
        updatedIncident
            (updateIncident db orgId keyName args now).1 orgId
            args =
          updatedIncident db orgId args := by
  intro hAll
  have hRow :=
    hAll { Db.empty with incidents := [gate] } "org" "agent"
      raisedAndBlanked 10 (by decide)
  exact absurd hRow (by decide)

end Incidents

end SentinelCommand
