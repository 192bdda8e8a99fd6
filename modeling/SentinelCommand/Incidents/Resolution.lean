import Mathlib.Data.List.Nodup
import SentinelCommand.Privacy.Tables
import SentinelCommand.Lib.Run

/-
  Whether the resolution stamps of an incident match its
  status, along any sequence of creations, REST patches and
  tool updates that run one after another.

  Both updates stamp an incident that enters a closed status
  and clear the stamps when it is opened. An incident that
  is acknowledged after it was closed keeps them.

  Main declarations:
    * `Incidents.StampsMatch`
    * `Incidents.stamps_match_iff`
    * `Incidents.acknowledged_keeps_stamps`
-/

--------------------
-- Requests
--------------------

namespace SentinelCommand

namespace Incidents

open Privacy

inductive Request where
  | create
      (user : AuthUser)
      (body : IncidentBody)
      (cameraKnown : Bool)
      (now later : Int)
  | toolCreate
      (orgId keyName title summary : String)
      (severity cameraId : Option String)
      (cameraKnown : Bool)
      (now : Int)
  | update
      (user : AuthUser)
      (incidentId : Int)
      (patch : IncidentPatch)
      (now : Int)
  | toolUpdate
      (orgId keyName : String)
      (incidentId : Int)
      (patch : IncidentPatch)
      (now : Int)
  deriving DecidableEq, Repr

/- A refused request leaves the tables alone. -/
def orSame (db : Db) : Except String Db → Db
| .ok next => next
| .error _ => db

def step (db : Db) : Request → Db
| .create user body cameraKnown now later =>
    orSame db (createIncident db user body cameraKnown now later)
| .toolCreate orgId keyName title summary severity cameraId
    cameraKnown now =>
    orSame db
      (toolCreateIncident db orgId keyName title summary
        severity cameraId cameraKnown now)
| .update user incidentId patch now =>
    orSame db (updateIncident db user incidentId patch now)
| .toolUpdate orgId keyName incidentId patch now =>
    (toolUpdateIncident db orgId keyName incidentId patch
      now).1

/- Both stamps are set, or neither, as the status asks. -/
def StampsMatch (row : Incident) : Prop :=
  row.resolvedAt.isSome = terminal row.status ∧
    row.resolvedBy.isSome = terminal row.status

instance (row : Incident) : Decidable (StampsMatch row) :=
  inferInstanceAs
    (Decidable
      (row.resolvedAt.isSome = terminal row.status ∧
        row.resolvedBy.isSome = terminal row.status))

def AllMatch (db : Db) : Prop :=
  ∀ row ∈ db.incidents, StampsMatch row

instance (db : Db) : Decidable (AllMatch db) :=
  inferInstanceAs
    (Decidable (∀ row ∈ db.incidents, StampsMatch row))

/- A patch that acknowledges the incident found, if closed. -/
def acknowledgesClosed
    (patch : IncidentPatch)
    (found : Option Incident) : Bool :=
  patch.status == some "acknowledged" &&
    found.any (fun incident => terminal incident.status)

/-
  The request is not refused before it writes the status,
  and acknowledges an incident that is closed.
-/
def Acknowledges (db : Db) : Request → Bool
| .update user incidentId patch _ =>
    decide (patch.severity.getD "low" ∈ severities) &&
      acknowledgesClosed patch
        (ownedIncident db user.orgId incidentId)
| .toolUpdate orgId _ incidentId patch _ =>
    (toolUpdateRefusal patch).isNone &&
      acknowledgesClosed patch
        (ownedIncident db orgId (asI32 incidentId))
| _ => false

variable {row : Incident}

/- Only acknowledging a closed incident goes wrong. -/
theorem resolution_matches_iff
    (hMatch : StampsMatch row)
    {status : String}
    (hValid : status ∈ statuses)
    (who : String)
    (now : Int) :
    StampsMatch
        { row with
          status := status
          resolvedAt := (resolution row status who now).1
          resolvedBy := (resolution row status who now).2 } ↔
      ¬ (status = "acknowledged" ∧
        terminal row.status = true) := by
  rcases hMatch with ⟨hAt, hBy⟩
  unfold StampsMatch resolution
  cases hClosed : terminal row.status with
  | true =>
      rw [hClosed] at hAt hBy
      simp only [statuses, List.mem_cons, List.not_mem_nil,
        or_false] at hValid
      rcases hValid with rfl | rfl | rfl | rfl <;>
        simp [terminal, hAt, hBy]
  | false =>
      rw [hClosed] at hAt hBy
      simp only [statuses, List.mem_cons, List.not_mem_nil,
        or_false] at hValid
      rcases hValid with rfl | rfl | rfl | rfl <;>
        simp [terminal, hAt, hBy]

--------------------
-- Tables of Incidents
--------------------

variable {db : Db}
variable {hit : Incident → Bool}
variable {f : Incident → Incident}

/- Ids are handed out once. -/
structure Distinct (db : Db) : Prop where
  nodup : (db.incidents.map Incident.id).Nodup
  fresh : ∀ row ∈ db.incidents, row.id < db.nextIncident

theorem distinct_empty : Distinct Db.empty where
  nodup := List.nodup_nil
  fresh := List.forall_mem_nil _

theorem eq_of_id
    (hDistinct : Distinct db)
    {row other : Incident}
    (hRow : row ∈ db.incidents)
    (hOther : other ∈ db.incidents)
    (hId : row.id = other.id) :
    row = other :=
  List.inj_on_of_nodup_map hDistinct.nodup hRow hOther hId

theorem distinct_insertIncident
    (hDistinct : Distinct db)
    (orgId : String)
    (cameraId : Option String)
    (title summary severity createdBy : String)
    (createdAt updatedAt : Int) :
    Distinct
      (insertIncident db orgId cameraId title summary severity
        createdBy createdAt updatedAt) where
  nodup := by
    simp only [insertIncident, List.map_append, List.map_cons,
      List.map_nil]
    refine List.nodup_append.mpr
      ⟨hDistinct.nodup, List.pairwise_singleton _ _, ?_⟩
    intro id hOld new hNew
    rw [List.mem_singleton.mp hNew]
    rcases List.mem_map.mp hOld with ⟨row, hRow, rfl⟩
    have hFresh := hDistinct.fresh row hRow
    omega
  fresh := by
    intro row hRow
    simp only [insertIncident] at hRow ⊢
    rcases List.mem_append.mp hRow with hOld | hNew
    · have hFresh := hDistinct.fresh row hOld
      omega
    · rw [List.mem_singleton.mp hNew]
      exact Int.lt_succ _

theorem distinct_setIncident
    (hDistinct : Distinct db)
    (hit : Incident → Bool)
    (hId : ∀ row, (f row).id = row.id) :
    Distinct (setIncident db hit f) where
  nodup := by
    have hIds :
        (setIncident db hit f).incidents.map Incident.id =
          db.incidents.map Incident.id := by
      rw [setIncident, List.map_map]
      apply List.map_congr_left
      intro row _
      dsimp only [Function.comp]
      split
      · exact hId row
      · rfl
    rw [hIds]
    exact hDistinct.nodup
  fresh := by
    intro row hRow
    rcases List.mem_map.mp hRow with ⟨old, hOld, rfl⟩
    have hFresh := hDistinct.fresh old hOld
    split
    · rw [hId]
      exact hFresh
    · exact hFresh

theorem allMatch_insertIncident_iff
    (orgId : String)
    (cameraId : Option String)
    (title summary severity createdBy : String)
    (createdAt updatedAt : Int) :
    AllMatch
        (insertIncident db orgId cameraId title summary severity
          createdBy createdAt updatedAt) ↔
      AllMatch db := by
  unfold AllMatch insertIncident
  constructor
  · intro hAll row hRow
    exact hAll row (List.mem_append_left _ hRow)
  · intro hAll row hRow
    rcases List.mem_append.mp hRow with hOld | hNew
    · exact hAll row hOld
    · rw [List.mem_singleton.mp hNew]
      exact ⟨rfl, rfl⟩

/-
  The ids stay apart, and whether the stamps match does not
  change.
-/
structure Unstamped (db next : Db) : Prop where
  distinct : Distinct db → Distinct next
  allMatch : AllMatch next ↔ AllMatch db

theorem unstamped_self : Unstamped db db :=
  ⟨id, Iff.rfl⟩

theorem unstamped_trans
    {mid next : Db}
    (hFirst : Unstamped db mid)
    (hSecond : Unstamped mid next) :
    Unstamped db next where
  distinct hDistinct :=
    hSecond.distinct (hFirst.distinct hDistinct)
  allMatch := hSecond.allMatch.trans hFirst.allMatch

/- An UPDATE that leaves status and stamps alone. -/
theorem allMatch_setIncident_iff
    (hit : Incident → Bool)
    (hSame : ∀ row, StampsMatch (f row) ↔ StampsMatch row) :
    AllMatch (setIncident db hit f) ↔ AllMatch db := by
  unfold AllMatch setIncident
  rw [List.forall_mem_map]
  refine forall₂_congr fun row _ => ?_
  split
  · exact hSame row
  · exact Iff.rfl

theorem unstamped_setIncident
    (hit : Incident → Bool)
    (hId : ∀ row, (f row).id = row.id)
    (hSame : ∀ row, StampsMatch (f row) ↔ StampsMatch row) :
    Unstamped db (setIncident db hit f) where
  distinct hDistinct := distinct_setIncident hDistinct hit hId
  allMatch := allMatch_setIncident_iff hit hSame

theorem unstamped_insertIncident
    (orgId : String)
    (cameraId : Option String)
    (title summary severity createdBy : String)
    (createdAt updatedAt : Int) :
    Unstamped db
      (insertIncident db orgId cameraId title summary severity
        createdBy createdAt updatedAt) where
  distinct hDistinct :=
    distinct_insertIncident hDistinct _ _ _ _ _ _ _ _
  allMatch := allMatch_insertIncident_iff _ _ _ _ _ _ _ _

/- An UPDATE of one row is judged by that row. -/
theorem allMatch_setIncident_found_iff
    (hAll : AllMatch db)
    {found : Incident}
    (hFound : found ∈ db.incidents)
    (hHit : hit found = true)
    (hOnly :
      ∀ row ∈ db.incidents, hit row = true → row = found) :
    AllMatch (setIncident db hit f) ↔
      StampsMatch (f found) := by
  unfold AllMatch setIncident
  rw [List.forall_mem_map]
  constructor
  · intro hNext
    simpa [hHit] using hNext found hFound
  · intro hMatch row hRow
    split
    · rename_i hIs
      rw [hOnly row hRow hIs]
      exact hMatch
    · exact hAll row hRow

theorem mem_of_ownedIncident
    {orgId : String}
    {incidentId : Int}
    {found : Incident}
    (hFound :
      ownedIncident db orgId incidentId = some found) :
    found ∈ db.incidents ∧ found.id = incidentId ∧
      found.orgId = orgId := by
  have hHit := List.find?_some hFound
  simp only [isIncident, Bool.and_eq_true, beq_iff_eq] at hHit
  exact ⟨List.mem_of_find?_eq_some hFound, hHit⟩

--------------------
-- The REST Patch
--------------------

variable {user : AuthUser}
variable {incidentId : Int}
variable {patch : IncidentPatch}
variable {now : Int}

theorem status_mem_of_getD
    {asked : Option String}
    {status : String}
    (hAsked : asked = some status)
    (hValid : asked.getD "open" ∈ statuses) :
    status ∈ statuses := by
  rw [hAsked] at hValid
  exact hValid

/- The columns the UPDATE writes beside the resolution. -/
theorem stampsMatch_patched_iff
    {found : Incident}
    (hMatch : StampsMatch found)
    (hValid : patch.status.getD "open" ∈ statuses)
    (who : String)
    (now : Int) :
    StampsMatch (patched found patch who now) ↔
      acknowledgesClosed patch (some found) = false := by
  cases hStatus : patch.status with
  | none =>
      have hSame :
          StampsMatch (patched found patch who now) ↔
            StampsMatch found := by
        simp only [StampsMatch, patched, hStatus,
          Option.getD_none]
      simpa [hSame, acknowledgesClosed, hStatus] using hMatch
  | some status =>
      have hOne :=
        resolution_matches_iff hMatch
          (status_mem_of_getD hStatus hValid) who now
      simp only [StampsMatch, patched, hStatus,
        Option.getD_some] at hOne ⊢
      rw [hOne]
      simp [acknowledgesClosed, hStatus]

/- The columns that the route's one UPDATE writes. -/
def patchRow
    (row : Incident)
    (now : Int)
    (old : Incident) : Incident :=
  { old with
    status := row.status
    severity := row.severity
    summary := row.summary
    report := row.report
    resolvedAt := row.resolvedAt
    resolvedBy := row.resolvedBy
    updatedAt := now }

theorem updateIncident_valid
    {found : Incident}
    (hFound :
      ownedIncident db user.orgId incidentId = some found)
    (hStatus : patch.status.getD "open" ∈ statuses)
    (hSeverity : patch.severity.getD "low" ∈ severities) :
    updateIncident db user incidentId patch now =
      .ok
        (if patched found patch ("user:" ++ user.userId) now =
            found then
          db
        else
          setIncident db (isIncident user.orgId incidentId)
            (patchRow
              (patched found patch ("user:" ++ user.userId)
                now) now)) := by
  simp only [updateIncident, hFound, hStatus, hSeverity,
    not_true_eq_false, if_false]
  split
  · rfl
  · rfl

/- A request that is refused writes nothing. -/
theorem updateIncident_refused
    (now : Int)
    (hRefused :
      ownedIncident db user.orgId incidentId = none ∨
        patch.status.getD "open" ∉ statuses ∨
        patch.severity.getD "low" ∉ severities) :
    ∃ refusal,
      updateIncident db user incidentId patch now =
        .error refusal := by
  unfold updateIncident
  cases hFound : ownedIncident db user.orgId incidentId with
  | none => exact ⟨_, rfl⟩
  | some found =>
      by_cases hStatus : patch.status.getD "open" ∈ statuses
      · have hSeverity :
            patch.severity.getD "low" ∉ severities := by
          rcases hRefused with hNone | hBad | hBad
          · rw [hFound] at hNone
            exact absurd hNone nofun
          · exact absurd hStatus hBad
          · exact hBad
        exact ⟨_, by simp [hStatus, hSeverity]; rfl⟩
      · exact ⟨_, by simp [hStatus]; rfl⟩

theorem distinct_update
    (hDistinct : Distinct db) :
    Distinct
      (orSame db
        (updateIncident db user incidentId patch now)) := by
  by_cases hRefused :
      ownedIncident db user.orgId incidentId = none ∨
        patch.status.getD "open" ∉ statuses ∨
        patch.severity.getD "low" ∉ severities
  · rcases updateIncident_refused now hRefused with
      ⟨refusal, hError⟩
    rw [hError]
    exact hDistinct
  · rw [not_or, not_or, not_not, not_not] at hRefused
    rcases hRefused with ⟨hSome, hStatus, hSeverity⟩
    rcases Option.ne_none_iff_exists'.mp hSome with
      ⟨found, hFound⟩
    rw [updateIncident_valid hFound hStatus hSeverity]
    dsimp only [orSame]
    split
    · exact hDistinct
    · exact distinct_setIncident hDistinct _ (fun _ => rfl)

theorem allMatch_update_iff
    (hDistinct : Distinct db)
    (hAll : AllMatch db) :
    AllMatch
        (orSame db
          (updateIncident db user incidentId patch now)) ↔
      Acknowledges db
        (.update user incidentId patch now) = false := by
  by_cases hRefused :
      ownedIncident db user.orgId incidentId = none ∨
        patch.status.getD "open" ∉ statuses ∨
        patch.severity.getD "low" ∉ severities
  · have hNot :
        Acknowledges db
          (.update user incidentId patch now) = false := by
      rcases hRefused with hNone | hBad | hBad
      · simp [Acknowledges, acknowledgesClosed, hNone]
      · have hOther : patch.status ≠ some "acknowledged" := by
          intro hAsked
          rw [hAsked] at hBad
          exact hBad (by decide)
        simp [Acknowledges, acknowledgesClosed, hOther]
      · simp [Acknowledges, hBad]
    rcases updateIncident_refused now hRefused with
      ⟨refusal, hError⟩
    rw [hError]
    exact ⟨fun _ => hNot, fun _ => hAll⟩
  · rw [not_or, not_or, not_not, not_not] at hRefused
    rcases hRefused with ⟨hSome, hStatus, hSeverity⟩
    rcases Option.ne_none_iff_exists'.mp hSome with
      ⟨found, hFound⟩
    rcases mem_of_ownedIncident hFound with ⟨hIn, hId, hOrg⟩
    have hOne :=
      stampsMatch_patched_iff (hAll found hIn) hStatus
        ("user:" ++ user.userId) now
    have hAsks :
        Acknowledges db (.update user incidentId patch now) =
          acknowledgesClosed patch (some found) := by
      simp [Acknowledges, hSeverity, hFound]
    rw [updateIncident_valid hFound hStatus hSeverity, hAsks,
      ← hOne]
    dsimp only [orSame]
    split
    · rename_i hSame
      rw [hSame]
      exact ⟨fun _ => hAll found hIn, fun _ => hAll⟩
    · apply allMatch_setIncident_found_iff hAll hIn
      · simp [isIncident, hId, hOrg]
      · intro row hRow hHit
        simp only [isIncident, Bool.and_eq_true,
          beq_iff_eq] at hHit
        exact eq_of_id hDistinct hRow hIn
          (hHit.1.trans hId.symm)

--------------------
-- The Tool's Updates
--------------------

variable {orgId keyName : String}

/- The status argument is judged like a patched status. -/
theorem allMatch_toolSetStatus_iff
    (hDistinct : Distinct db)
    (hAll : AllMatch db)
    {found : Incident}
    (hFound :
      ownedIncident db orgId incidentId = some found)
    {status : String}
    (hValid : status ∈ statuses) :
    AllMatch
        (toolSetStatus db keyName incidentId found status
          now) ↔
      ¬ (status = "acknowledged" ∧
        terminal found.status = true) := by
  rcases mem_of_ownedIncident hFound with ⟨hIn, hId, -⟩
  have hHit :
      (fun row : Incident => row.id == incidentId) found =
        true :=
    beq_iff_eq.mpr hId
  rw [← resolution_matches_iff (hAll found hIn) hValid
    (agentLabel keyName) now]
  unfold toolSetStatus
  refine
    (allMatch_setIncident_found_iff hAll hIn hHit ?_).trans ?_
  · intro row hRow hHit
    exact eq_of_id hDistinct hRow hIn
      ((beq_iff_eq.mp hHit).trans hId.symm)
  · unfold resolution
    split
    · exact Iff.rfl
    · split
      · exact Iff.rfl
      · exact Iff.rfl

theorem unstamped_toolSetSeverity
    (severity : Option String) :
    Unstamped db
      (toolSetSeverity db incidentId severity now) := by
  cases severity with
  | none => exact unstamped_self
  | some severity =>
      exact unstamped_setIncident _ (fun _ => rfl)
        (fun _ => Iff.rfl)

theorem unstamped_toolSetSummary
    {summary : Option String}
    {next : Db}
    (hNext :
      toolSetSummary db incidentId summary now = .ok next) :
    Unstamped db next := by
  unfold toolSetSummary at hNext
  cases summary with
  | none =>
      cases hNext
      exact unstamped_self
  | some summary =>
      dsimp only at hNext
      split at hNext
      · cases hNext
      · split at hNext
        · cases hNext
        · cases hNext
          exact unstamped_setIncident _ (fun _ => rfl)
            (fun _ => Iff.rfl)

theorem unstamped_toolSetReport
    {report : Option String}
    {next : Db}
    (hNext :
      toolSetReport db incidentId report now = .ok next) :
    Unstamped db next := by
  unfold toolSetReport at hNext
  cases report with
  | none =>
      cases hNext
      exact unstamped_self
  | some report =>
      dsimp only at hNext
      split at hNext
      · cases hNext
      · cases hNext
        exact unstamped_setIncident _ (fun _ => rfl)
          (fun _ => Iff.rfl)

/- The tables after the status argument. -/
def afterStatus
    (db : Db)
    (keyName : String)
    (incidentId : Int)
    (found : Incident)
    (status : Option String)
    (now : Int) : Db :=
  match status with
  | none => db
  | some status =>
      toolSetStatus db keyName incidentId found status now

/- An accepted call, from the status on. -/
def laterWrites
    (first : Db)
    (incidentId : Int)
    (patch : IncidentPatch)
    (now : Int) : Db :=
  let second :=
    toolSetSeverity first incidentId patch.severity now
  match toolSetSummary second incidentId patch.summary now with
  | .error _ => second
  | .ok third =>
      match toolSetReport third incidentId patch.report now with
      | .error _ => third
      | .ok fourth => fourth

theorem toolUpdateIncident_accepted
    {found : Incident}
    (hRefusal : toolUpdateRefusal patch = none)
    (hFound :
      ownedIncident db orgId (asI32 incidentId) =
        some found) :
    (toolUpdateIncident db orgId keyName incidentId patch
        now).1 =
      laterWrites
        (afterStatus db keyName (asI32 incidentId) found
          patch.status now)
        (asI32 incidentId) patch now := by
  simp only [toolUpdateIncident, hRefusal, hFound, afterStatus,
    laterWrites]
  cases toolSetSummary _ _ patch.summary now with
  | error refusal => rfl
  | ok third =>
      dsimp only
      cases toolSetReport third _ patch.report now with
      | error refusal => rfl
      | ok fourth => rfl

theorem unstamped_laterWrites
    (first : Db) :
    Unstamped first
      (laterWrites first incidentId patch now) := by
  have hSecond :
      Unstamped first
        (toolSetSeverity first incidentId patch.severity now) :=
    unstamped_toolSetSeverity patch.severity
  unfold laterWrites
  dsimp only
  split
  · exact hSecond
  · rename_i third hSummary
    have hThird := unstamped_toolSetSummary hSummary
    split
    · exact unstamped_trans hSecond hThird
    · rename_i fourth hReport
      exact
        unstamped_trans hSecond
          (unstamped_trans hThird
            (unstamped_toolSetReport hReport))

theorem toolUpdateIncident_refused
    (hRefused :
      toolUpdateRefusal patch ≠ none ∨
        ownedIncident db orgId (asI32 incidentId) = none) :
    (toolUpdateIncident db orgId keyName incidentId patch
      now).1 = db := by
  cases hRefusal : toolUpdateRefusal patch with
  | some refusal => simp only [toolUpdateIncident, hRefusal]
  | none =>
      have hNone :=
        hRefused.resolve_left (fun hSome => hSome hRefusal)
      simp only [toolUpdateIncident, hRefusal, hNone]

theorem distinct_toolUpdate
    (hDistinct : Distinct db) :
    Distinct
      (toolUpdateIncident db orgId keyName incidentId patch
        now).1 := by
  by_cases hRefused :
      toolUpdateRefusal patch ≠ none ∨
        ownedIncident db orgId (asI32 incidentId) = none
  · rw [toolUpdateIncident_refused hRefused]
    exact hDistinct
  · rw [not_or, not_not] at hRefused
    rcases hRefused with ⟨hRefusal, hSome⟩
    rcases Option.ne_none_iff_exists'.mp hSome with
      ⟨found, hFound⟩
    rw [toolUpdateIncident_accepted hRefusal hFound]
    apply (unstamped_laterWrites _).distinct
    unfold afterStatus
    split
    · exact hDistinct
    · apply distinct_setIncident hDistinct
      intro row
      split
      · rfl
      · split
        · rfl
        · rfl

theorem status_of_toolUpdateRefusal
    (hRefusal : toolUpdateRefusal patch = none) :
    patch.status.getD "open" ∈ statuses := by
  unfold toolUpdateRefusal at hRefusal
  by_contra hBad
  simp [hBad] at hRefusal

theorem allMatch_toolUpdate_iff
    (hDistinct : Distinct db)
    (hAll : AllMatch db) :
    AllMatch
        (toolUpdateIncident db orgId keyName incidentId patch
          now).1 ↔
      Acknowledges db
        (.toolUpdate orgId keyName incidentId patch now) =
          false := by
  by_cases hRefused :
      toolUpdateRefusal patch ≠ none ∨
        ownedIncident db orgId (asI32 incidentId) = none
  · rw [toolUpdateIncident_refused hRefused]
    refine ⟨fun _ => ?_, fun _ => hAll⟩
    rcases hRefused with hSome | hNone
    · simp [Acknowledges, hSome]
    · simp [Acknowledges, acknowledgesClosed, hNone]
  · rw [not_or, not_not] at hRefused
    rcases hRefused with ⟨hRefusal, hSome⟩
    rcases Option.ne_none_iff_exists'.mp hSome with
      ⟨found, hFound⟩
    have hAsks :
        Acknowledges db
            (.toolUpdate orgId keyName incidentId patch now) =
          acknowledgesClosed patch (some found) := by
      simp [Acknowledges, hRefusal, hFound]
    rw [toolUpdateIncident_accepted hRefusal hFound,
      (unstamped_laterWrites _).allMatch, hAsks]
    unfold afterStatus
    cases hStatus : patch.status with
    | none => simpa [acknowledgesClosed, hStatus] using hAll
    | some status =>
        have hValid :=
          status_mem_of_getD hStatus
            (status_of_toolUpdateRefusal hRefusal)
        dsimp only
        rw [allMatch_toolSetStatus_iff hDistinct hAll hFound
          hValid]
        simp [acknowledgesClosed, hStatus]

--------------------
-- Every Sequence of Requests
--------------------

/- A new incident is open and has no stamps. -/
theorem unstamped_create
    (user : AuthUser)
    (body : IncidentBody)
    (cameraKnown : Bool)
    (now later : Int) :
    Unstamped db
      (step db (.create user body cameraKnown now later)) := by
  simp only [step, createIncident]
  split_ifs <;>
    first
    | exact unstamped_self
    | exact unstamped_insertIncident _ _ _ _ _ _ _ _

theorem unstamped_toolCreate
    (orgId keyName title summary : String)
    (severity cameraId : Option String)
    (cameraKnown : Bool)
    (now : Int) :
    Unstamped db
      (step db
        (.toolCreate orgId keyName title summary severity
          cameraId cameraKnown now)) := by
  simp only [step, toolCreateIncident]
  split
  · exact unstamped_self
  · split
    · exact unstamped_self
    · split
      · exact unstamped_self
      · split
        · exact unstamped_self
        · split
          · exact unstamped_self
          · split
            · exact unstamped_self
            · exact unstamped_insertIncident _ _ _ _ _ _ _ _

theorem distinct_step
    (hDistinct : Distinct db)
    (request : Request) :
    Distinct (step db request) := by
  cases request with
  | create =>
      exact (unstamped_create _ _ _ _ _).distinct hDistinct
  | toolCreate =>
      exact
        (unstamped_toolCreate _ _ _ _ _ _ _ _).distinct
          hDistinct
  | update user incidentId patch now =>
      exact distinct_update hDistinct
  | toolUpdate orgId keyName incidentId patch now =>
      exact distinct_toolUpdate hDistinct

/-
  One request: only acknowledging an incident that is closed
  leaves stamps that do not match.
-/
theorem allMatch_step_iff
    (hDistinct : Distinct db)
    (hAll : AllMatch db)
    (request : Request) :
    AllMatch (step db request) ↔
      Acknowledges db request = false := by
  cases request with
  | create =>
      exact
        ⟨fun _ => rfl,
          fun _ =>
            (unstamped_create _ _ _ _ _).allMatch.mpr hAll⟩
  | toolCreate =>
      exact
        ⟨fun _ => rfl,
          fun _ =>
            (unstamped_toolCreate _ _ _ _ _ _ _ _).allMatch.mpr
              hAll⟩
  | update user incidentId patch now =>
      exact allMatch_update_iff hDistinct hAll
  | toolUpdate orgId keyName incidentId patch now =>
      exact allMatch_toolUpdate_iff hDistinct hAll

/-
  The stamps of every incident match its status all along a
  sequence of requests exactly when none of them acknowledges
  an incident that was closed.
-/
theorem stamps_match_iff
    (requests : List Request) :
    (∀ past, past <+: requests →
        AllMatch (Run.exec step Db.empty past)) ↔
      Run.Meets step
        (fun db request => Acknowledges db request = false)
        Db.empty requests := by
  rw [← Run.good_prefixes_iff_meets
    (fun db => Distinct db ∧ AllMatch db) ?_ requests
    ⟨distinct_empty, fun _ hRow => absurd hRow List.not_mem_nil⟩]
  · refine forall₂_congr fun past _ => ?_
    refine ⟨fun hAll => ⟨?_, hAll⟩, fun hGood => hGood.2⟩
    have hKept :
        ∀ db request, Distinct db → Distinct (step db request) :=
      fun _ request hDistinct => distinct_step hDistinct request
    exact Run.invariant_exec hKept past distinct_empty
  · rintro db request ⟨hDistinct, hAll⟩
    rw [← allMatch_step_iff hDistinct hAll request]
    exact
      ⟨fun hGood => hGood.2,
        fun hNext => ⟨distinct_step hDistinct request, hNext⟩⟩

/-
  An incident is created and resolved over REST, and then
  acknowledged by the tool: it is open to work again and
  still says who resolved it.
-/
def acknowledgedLater : List Request :=
  [.toolCreate "org" "agent" "Gate forced" "seen on cam"
      none none false 10,
    .update
      { userId := "u"
        orgId := "org"
        email := ""
        username := "" }
      1
      { status := some "resolved"
        severity := none
        summary := none
        report := none }
      20,
    .toolUpdate "org" "agent" 1
      { status := some "acknowledged"
        severity := none
        summary := none
        report := none }
      30]

theorem acknowledged_keeps_stamps :
    ¬ ∀ requests : List Request,
      AllMatch (Run.exec step Db.empty requests) := by
  intro hAll
  exact absurd (hAll acknowledgedLater) (by decide)

end Incidents

end SentinelCommand
