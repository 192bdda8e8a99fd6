import SentinelCommand.Heartbeat.Announcements
import SentinelCommand.Notifications.MotionCooldown

/-
  The 90 seconds after which a camera is offline, as the
  sweep compares them and as the dashboard counts them.

  The sweep compares `last_seen` with a cutoff. The displayed
  status counts whole seconds and asks for more than 90, so
  that it is up to a second behind. Stored instants are whole
  microseconds, so the part of the clock below them does not
  matter to either.

  Main declarations:
    * `Heartbeat.cameraEffectiveStatus`
    * `Heartbeat.sweep_agrees_iff`
    * `Heartbeat.swept_but_streaming`
-/

--------------------
-- The Two Rules
--------------------

namespace SentinelCommand

namespace Heartbeat

open MotionCooldown

def offlineHeartbeatTimeoutSeconds : Int :=
  90

def heartbeatGraceSeconds : Int :=
  90

/- `run_offline_sweep` flips the row. -/
def sweeps (row : CameraRow) (now : Int) : Bool :=
  (sweepCamera row
    (now - seconds offlineHeartbeatTimeoutSeconds)).isSome

/- What every route reports of a camera. -/
def cameraEffectiveStatus
    (status : Option String)
    (lastSeen : Option Int)
    (now : Int) : Option String :=
  match lastSeen with
  | none => some "offline"
  | some lastSeen =>
      if status = some "offline" then
        some "offline"
      else if
        numSeconds (now - lastSeen) > heartbeatGraceSeconds
      then
        some "offline"
      else
        status

--------------------
-- Agreement
--------------------

variable {row : CameraRow}
variable {now lastSeen : Int}

/- More than 90 whole seconds are at least 91 seconds. -/
theorem grace_lt_numSeconds_iff (span : Int) :
    numSeconds span > heartbeatGraceSeconds ↔
      seconds 91 ≤ span := by
  unfold numSeconds heartbeatGraceSeconds seconds
  rcases Int.le_total 0 span with hPast | hFuture
  · rw [Int.tdiv_eq_ediv_of_nonneg hPast]
    omega
  · have hNone : 0 ≤ (-span).tdiv (1 * 1000000) :=
      Int.tdiv_nonneg (by omega) (by decide)
    rw [Int.neg_tdiv] at hNone
    omega

theorem sweeps_iff
    (hSeen : row.lastSeen = some lastSeen)
    (hStatus : row.status ≠ some "offline") :
    sweeps row now = true ↔
      row.status ≠ none ∧ seconds 90 < now - lastSeen := by
  unfold sweeps sweepCamera offlineHeartbeatTimeoutSeconds
  rw [hSeen]
  cases hStored : row.status with
  | none => simp
  | some status =>
      have hOther : status ≠ "offline" := by
        rintro rfl
        exact hStatus hStored
      have hCutoff :
          lastSeen < now - seconds 90 ↔
            seconds 90 < now - lastSeen := by
        omega
      simp [hOther, hCutoff]

theorem displayed_offline_iff
    (hStatus : row.status ≠ some "offline") :
    cameraEffectiveStatus row.status (some lastSeen) now =
        some "offline" ↔
      seconds 91 ≤ now - lastSeen := by
  rw [← grace_lt_numSeconds_iff]
  unfold cameraEffectiveStatus
  simp only [hStatus, if_false]
  split
  · rename_i hLate
    exact iff_of_true rfl hLate
  · rename_i hSoon
    exact iff_of_false hStatus hSoon

/-
  Sweep and dashboard agree on a camera exactly when it was
  not heard from last between 90 and 91 seconds ago, both
  ends out. The sweep passes over a camera whose status is
  NULL, so that they agree on it up to 91 seconds.
-/
theorem sweep_agrees_iff
    (hSeen : row.lastSeen = some lastSeen)
    (hStatus : row.status ≠ some "offline") :
    (sweeps row now = true ↔
        cameraEffectiveStatus row.status row.lastSeen now =
          some "offline") ↔
      (row.status ≠ none →
          ¬ (seconds 90 < now - lastSeen ∧
            now - lastSeen < seconds 91)) ∧
        (row.status = none → now - lastSeen < seconds 91) := by
  rw [sweeps_iff hSeen hStatus, hSeen,
    displayed_offline_iff hStatus]
  by_cases hStored : row.status = none
  · simp [hStored]
  · simp only [hStored, ne_eq, not_false_eq_true, true_and,
      forall_const, false_implies, and_true]
    unfold seconds
    omega

/- A camera that was streaming at midnight. -/
def streamingCamera : CameraRow where
  cameraId := "node_cam"
  nodeId := some 1
  name := "Gate"
  status := some "streaming"
  lastSeen := some 0
  lastError := none

theorem sweep_agrees_iff_twoMinutes :
    sweeps streamingCamera (seconds 120) = true ↔
      cameraEffectiveStatus streamingCamera.status
          streamingCamera.lastSeen (seconds 120) =
        some "offline" := by
  have hSeen : streamingCamera.lastSeen = some 0 := rfl
  refine (sweep_agrees_iff hSeen (by decide)).mpr ?_
  decide

/- At 90.5 seconds it is flipped, and displayed as streaming. -/
theorem swept_but_streaming :
    ¬ ∀ (row : CameraRow) (lastSeen now : Int),
      row.lastSeen = some lastSeen →
        row.status ≠ some "offline" →
          (sweeps row now = true ↔
            cameraEffectiveStatus row.status row.lastSeen
                now =
              some "offline") := by
  intro hAll
  have hBoth :=
    hAll streamingCamera 0 90500000 rfl (by decide)
  exact absurd hBoth (by decide)

end Heartbeat

end SentinelCommand
