import SentinelCommand.Lib.Run
import SentinelCommand.Privacy.Writes

/-
  Erasure over the runs of the program.

  A run is any sequence of writes, earlier erasures
  included. Erasing a person is complete in every state of
  a run exactly when each write of the run stores names the
  eraser can find. An incident the person files, resolves
  or dismisses is a write that does not.

  Main declarations:
    * `Privacy.erased_along_iff`
    * `Privacy.erased_along_fails`
    * `Privacy.not_erased_of_label`
-/

--------------------
-- Runs
--------------------

namespace SentinelCommand

namespace Privacy

variable {c : Casing} {p : Person} {db : Db}

/- What one write does to what the eraser can find. -/
theorem searchable_step_iff
    (hFits : Searchable c p db)
    (w : Write) :
    Searchable c p (step c db w) ↔ WriteFits c p db w := by
  cases w with
  | logStreamAccess user cameraId nodeId peerIp agent now =>
      exact searchable_logStreamAccess hFits _ _ _ _ _ _
  | writeAudit orgId event actor details clientIp now =>
      exact searchable_writeAudit hFits _ _ _ _ _ _
  | getOrInitState user now =>
      exact searchable_getOrInitState hFits _ _ _
  | markViewed user now =>
      exact (searchable_setState _ _ _).trans
        (searchable_getOrInitState hFits _ _ _)
  | clearAll user now =>
      exact (searchable_setState _ _ _).trans
        (searchable_getOrInitState hFits _ _ _)
  | createIncident user body cameraKnown now later =>
      exact searchable_createIncident hFits _ _ _ _ _
  | updateIncident user incidentId patch now =>
      exact searchable_updateIncident hFits _ _ _ _
  | deleteIncident orgId incidentId =>
      exact iff_true_intro
        (searchable_deleteIncident hFits _ _)
  | toolCreateIncident orgId keyName title summary severity
      cameraId cameraKnown now =>
      exact searchable_toolCreateIncident hFits _ _ _ _ _ _ _
        _
  | toolUpdateIncident orgId keyName incidentId patch now =>
      exact searchable_toolUpdateIncident hFits _ _ _ _ _
  | createAgentKey user name now =>
      exact searchable_createAgentKey hFits _ _ _
  | revokeAgentKey orgId keyId =>
      exact iff_true_intro
        (searchable_revokeAgentKey hFits _ _)
  | enqueue orgId kind recipients now =>
      exact searchable_enqueue hFits _ _ _ _
  | setOutboxStatus index status =>
      exact iff_true_intro
        (searchable_setOutboxStatus hFits _ _)
  | processRow index status finalStatus now =>
      exact iff_true_intro
        (searchable_processRow hFits _ _ _ _)
  | insertSuppression address reason source now =>
      exact searchable_insertSuppression hFits _ _ _ _
  | unsubscribe recipient now =>
      exact searchable_suppress hFits _ _ _ _
  | wipeStreamLogs orgId =>
      refine iff_true_intro (searchable_of_subset hFits
        ?_ ?_ ?_ ?_ ?_ ?_ ?_ ?_) <;>
        simp [step, wipeStreamLogs]
  | cleanupLogs orgId cutoff =>
      refine iff_true_intro (searchable_of_subset hFits
        ?_ ?_ ?_ ?_ ?_ ?_ ?_ ?_) <;>
        simp [step, cleanupLogs]
  | cleanupOutbox cutoff =>
      refine iff_true_intro (searchable_of_subset hFits
        ?_ ?_ ?_ ?_ ?_ ?_ ?_ ?_) <;>
        simp [step, cleanupOutbox]
  | deleteOrgData orgId =>
      refine iff_true_intro (searchable_of_subset hFits
        ?_ ?_ ?_ ?_ ?_ ?_ ?_ ?_) <;>
        simp [step, deleteOrgData]
  | eraseUserData q =>
      exact searchable_eraseUserData hFits q

/-
  Erasing the person is complete in every state of a run
  exactly when every write of the run stores names the
  eraser can find.
-/
theorem erased_along_iff
    (c : Casing)
    (p : Person)
    (writes : List Write) :
    (∀ past, past <+: writes →
      Erased c p (Run.exec (step c) Db.empty past)) ↔
      Run.Meets (step c) (WriteFits c p) Db.empty
        writes := by
  simp only [erased_iff_searchable]
  exact Run.good_prefixes_iff_meets (Searchable c p)
    (fun _ w hFits => searchable_step_iff hFits w) writes
    searchable_empty

/- The casing of an engine that folds ASCII alone. -/
def asciiCasing : Casing where
  toLowercase text := String.ofList (text.toList.map Char.toLower)
  lower text := String.ofList (text.toList.map Char.toLower)

/- An admin who files one incident and deletes the account. -/
def leaver : AuthUser where
  userId := "user_1"
  orgId := "org_1"
  email := "Ann@example.test"
  username := "ann"

def filed : List Write :=
  [ .createIncident leaver
      { title := "Gate open"
        summary := "North gate found open."
        severity := "low"
        cameraId := none }
      false 0 1 ]

/- The incident still says who filed it. -/
theorem erased_along_fails :
    ¬ Erased asciiCasing
        { userId := "user_1", emails := ["ann@example.test"] }
        (Run.exec (step asciiCasing) Db.empty filed) := by
  intro hErased
  have hClean := hErased.noTrace.incidents
  revert hClean
  unfold Redaction.Clean
  decide

/-
  A label an incident route gives the person names them, and
  the eraser looks for another text.
-/
theorem not_labelFits_user
    (hMiss : hasAddress c p ("user:" ++ p.userId) = false) :
    ¬ LabelFits c p ("user:" ++ p.userId) := by
  intro hFits
  have hNames : prefixed c p ("user:" ++ p.userId) = true :=
    prefixed_append c p (by simp [writerPrefixes])
      (by simp [plain])
  have hFound := hFits.unprefixed hNames
  simp only [matched, hMiss, Bool.or_false, beq_iff_eq]
    at hFound
  have hLength := congrArg (fun text => text.toList.length)
    hFound
  simp [String.toList_append] at hLength
  omega

/-
  An incident the person filed or closed over REST outlives
  the erasure with their user id on it.
-/
theorem not_erased_of_label
    {row : Incident}
    (hRow : row ∈ db.incidents)
    (hLabel :
      row.createdBy = "user:" ++ p.userId ∨
        row.resolvedBy = some ("user:" ++ p.userId))
    (hMiss : hasAddress c p ("user:" ++ p.userId) = false) :
    ¬ Erased c p db := by
  rw [erased_iff_searchable]
  intro hFits
  have hStored := hFits.incidents row hRow
  rcases hLabel with hBy | hClosed
  · refine not_labelFits_user hMiss ?_
    rw [← hBy]
    exact hStored.createdBy
  · exact not_labelFits_user hMiss
      (hStored.resolvedBy _ hClosed)

end Privacy

end SentinelCommand
