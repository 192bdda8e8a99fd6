import SentinelCommand.Heartbeat.Agreement
import SentinelCommand.Lib.Run

/-
  What the users were told last about a camera.

  Heartbeats, over HTTP or the WebSocket, and the offline
  sweep store a camera's status and announce its transitions.
  A transition of one direction is dropped when one of that
  direction was emitted less than a minute before, and coming
  back is announced only from `offline`.

  Key definitions include:
    * `Heartbeat.shouldEmitTransition`
    * `Heartbeat.emitCameraTransition`

  Main declarations:
    * `Heartbeat.last_notification_explained`
    * `Heartbeat.flap_contradicts`
-/

--------------------
-- Notifications
--------------------

namespace SentinelCommand

namespace Heartbeat

structure Notification where
  kind : String
  title : String
  body : String
  severity : String
  audience : String
  link : String
  cameraId : String
  deriving DecidableEq, Repr

def Direction.kind : Direction → String
| .offline => "camera_offline"
| .online => "camera_online"

def cameraNotification
    (transition : CameraTransition) : Notification where
  kind := transition.direction.kind
  title :=
    match transition.direction with
    | .online => transition.displayName ++ " is online"
    | .offline => transition.displayName ++ " went offline"
  body :=
    match transition.direction with
    | .online => "Camera is streaming again."
    | .offline => "No heartbeat received in over 90 seconds."
  severity :=
    match transition.direction with
    | .online => "info"
    | .offline => "warning"
  audience := "all"
  link := "/dashboard?camera=" ++ transition.cameraId
  cameraId := transition.cameraId

def transitionDebounceSeconds : Nat :=
  60

/- Whole seconds between two instants in nanoseconds. -/
def secondsSince (last now : Nat) : Nat :=
  (now - last) / 1000000000

def shouldEmitTransition
    (last : Option Nat)
    (now : Nat) : Bool :=
  match last with
  | some last =>
      !decide (secondsSince last now < transitionDebounceSeconds)
  | none => true

/- A transition that reached `emit_camera_transition`. -/
structure Attempt where
  transition : CameraTransition
  instant : Nat
  emitted : Bool
  deriving DecidableEq, Repr

/-
  One camera's part of the debounce map, and its attempts
  with the newest first.
-/
structure Notifier where
  debounce : Direction → Option Nat
  log : List Attempt

def emitCameraTransition
    (notifier : Notifier)
    (transition : CameraTransition)
    (now : Nat) : Notifier :=
  if
    shouldEmitTransition
      (notifier.debounce transition.direction) now
  then
    { debounce := fun direction =>
        if direction = transition.direction then
          some now
        else
          notifier.debounce direction
      log :=
        { transition := transition
          instant := now
          emitted := true } :: notifier.log }
  else
    { notifier with
      log :=
        { transition := transition
          instant := now
          emitted := false } :: notifier.log }

/- In order, each at the next reading of the clock. -/
def emitTransitions :
    Notifier → (Nat → Nat) → List CameraTransition → Notifier
| notifier, _, [] => notifier
| notifier, clock, transition :: rest =>
    emitTransitions
      (emitCameraTransition notifier transition (clock 0))
      (fun reading => clock (reading + 1))
      rest

/- The newest notification that went out. -/
def lastSent (notifier : Notifier) : Option Notification :=
  (notifier.log.find? Attempt.emitted).map
    (fun attempt => cameraNotification attempt.transition)

--------------------
-- One Camera
--------------------

/-
  A camera with every status it was stored with, the newest
  first, and what was announced of it.
-/
structure Feed where
  row : CameraRow
  statuses : List (Option String)
  notifier : Notifier

/- The process has announced nothing yet. -/
def Feed.initial (row : CameraRow) : Feed where
  row := row
  statuses := [row.status]
  notifier :=
    { debounce := fun _ => none
      log := [] }

/-
  The camera's part of `run_offline_sweep_with`: a NULL
  status or a NULL `last_seen` matches neither comparison.
-/
def sweepCamera
    (row : CameraRow)
    (cutoff : Int) : Option CameraRow :=
  match row.status, row.lastSeen with
  | some status, some lastSeen =>
      if status ≠ "offline" ∧ lastSeen < cutoff then
        some { row with status := some "offline" }
      else
        none
  | _, _ => none

/- The statuses that a node's reports store. -/
def ownStatuses
    (row : CameraRow)
    (node : Int)
    (reports : List CameraStatusReport) : List String :=
  (reports.filter
    (fun report => isOwnCamera node report.cameraId row)).map
      CameraStatusReport.status

/- An entry of the payload, as the handler reads it. -/
def WsCamera.report
    (camera : WsCamera) : Option CameraStatusReport :=
  camera.cameraId.map (fun cameraId =>
    { cameraId := cameraId
      status := camera.status.getD "online"
      lastError := camera.lastError })

/- A camera whose status is NULL stops the handler. -/
def socketStatuses
    (row : CameraRow)
    (node : Int)
    (cameras : List WsCamera) : List String :=
  if row.status.isNone then
    []
  else
    ownStatuses row node (cameras.filterMap WsCamera.report)

inductive Event where
  | heartbeat
      (node now : Int)
      (reports : List CameraStatusReport)
      (clock : Nat → Nat)
  | socket
      (node now : Int)
      (cameras : List WsCamera)
      (clock : Nat → Nat)
  | sweep
      (now timeoutSeconds : Int)
      (clock : Nat → Nat)

/- What a heartbeat leaves: its rows, and what it emits. -/
def Feed.heard
    (feed : Feed)
    (result : List CameraRow × List CameraTransition)
    (stored : List String)
    (clock : Nat → Nat) : Feed where
  row := result.1.headD feed.row
  statuses := (stored.map some).reverse ++ feed.statuses
  notifier := emitTransitions feed.notifier clock result.2

/- Timestamps are in microseconds. -/
def Feed.step (feed : Feed) : Event → Feed
| .heartbeat node now reports clock =>
    feed.heard (nodeHeartbeat [feed.row] node now reports)
      (ownStatuses feed.row node reports) clock
| .socket node now cameras clock =>
    feed.heard (handleHeartbeat [feed.row] node now cameras)
      (socketStatuses feed.row node cameras) clock
| .sweep now timeoutSeconds clock =>
    match
      sweepCamera feed.row (now - timeoutSeconds * 1000000)
    with
    | none => feed
    | some row =>
        { row := row
          statuses := row.status :: feed.statuses
          notifier :=
            emitTransitions feed.notifier clock
              [{ cameraId := row.cameraId
                 displayName :=
                   displayName row.name row.cameraId
                 direction := .offline }] }

--------------------
-- Reports of One Camera
--------------------

variable {node now : Int}

/- The transitions of a camera that takes these statuses. -/
def transitionsOf (cameraId name : String) :
    Option String → List String → List CameraTransition
| _, [] => []
| previous, status :: rest =>
    ((cameraTransition previous status).map
        (fun direction =>
          { cameraId := cameraId
            displayName := displayName name cameraId
            direction := direction })).toList ++
      transitionsOf cameraId name (some status) rest

theorem httpLoop_of_unknown
    (rows : List CameraRow)
    (reports : List CameraStatusReport) :
    httpLoop node now [] rows reports = (rows, []) := by
  induction reports with
  | nil => rfl
  | cons report rest ih =>
      rw [httpLoop]
      exact ih

/- The camera's row after a report of it. -/
def reportedRow
    (now : Int)
    (report : CameraStatusReport)
    (row : CameraRow) : CameraRow :=
  { row with
    status := some report.status
    lastSeen := some now
    lastError :=
      if keepsError report.status then
        report.lastError
      else
        none }

/- The loop over a table of one camera that is known. -/
theorem httpLoop_of_own
    {row : CameraRow}
    (hNode : row.nodeId = some node)
    (reports : List CameraStatusReport) :
    ∃ row' : CameraRow,
      httpLoop node now
          [{ cameraId := row.cameraId
             status := row.status
             name := row.name }]
          [row] reports =
        ([row'],
          transitionsOf row.cameraId row.name row.status
            (ownStatuses row node reports)) ∧
      row'.status =
        ((ownStatuses row node reports).getLast?).or
          row.status := by
  induction reports generalizing row with
  | nil => exact ⟨row, rfl, rfl⟩
  | cons report rest ih =>
      by_cases hId : row.cameraId = report.cameraId
      · have hOwn :
            ownStatuses row node (report :: rest) =
              report.status :: ownStatuses row node rest := by
          simp [ownStatuses, isOwnCamera, hId, hNode]
        have hWritten :
            updateCamera [row] node report.cameraId
                report.status now
                (if keepsError report.status then
                  report.lastError
                else
                  none) =
              [reportedRow now report row] := by
          simp [updateCamera, isOwnCamera, hId, hNode,
            reportedRow]
        rcases @ih (reportedRow now report row) hNode with
          ⟨row', hLoop, hStatus⟩
        refine ⟨row', ?_, ?_⟩
        · rw [httpLoop]
          simp only [List.find?_cons, hId, beq_self_eq_true,
            hWritten, setPrevious, announces, List.map_cons,
            List.map_nil, if_true, Option.bind_some]
          rw [hOwn, transitionsOf, ← hId]
          change
            httpLoop node now
                [{ cameraId := row.cameraId
                   status := some report.status
                   name := row.name }]
                [reportedRow now report row] rest = _ at hLoop
          rw [hLoop]
          rfl
        · rw [hStatus, hOwn, List.getLast?_cons]
          change
            ((ownStatuses row node rest).getLast?).or
                (some report.status) = _
          cases (ownStatuses row node rest).getLast? with
          | none => rfl
          | some last => rfl
      · have hOwn :
            ownStatuses row node (report :: rest) =
              ownStatuses row node rest := by
          simp [ownStatuses, isOwnCamera, hId]
        rcases ih hNode with ⟨row', hLoop, hStatus⟩
        refine ⟨row', ?_, hOwn ▸ hStatus⟩
        rw [httpLoop, hOwn, ← hLoop]
        simp [hId]

theorem ownStatuses_of_foreign
    {row : CameraRow}
    (hNode : row.nodeId ≠ some node)
    (reports : List CameraStatusReport) :
    ownStatuses row node reports = [] := by
  rw [ownStatuses, List.map_eq_nil_iff,
    List.filter_eq_nil_iff]
  intro report _
  simp [isOwnCamera, hNode]

/- What a heartbeat stores and announces of one camera. -/
theorem nodeHeartbeat_of_one
    (row : CameraRow)
    (node now : Int)
    (reports : List CameraStatusReport) :
    ∃ row' : CameraRow,
      nodeHeartbeat [row] node now reports =
        ([row'],
          transitionsOf row.cameraId row.name row.status
            (ownStatuses row node reports)) ∧
      row'.status =
        ((ownStatuses row node reports).getLast?).or
          row.status := by
  rw [nodeHeartbeat_eq_httpLoop]
  by_cases hNode : row.nodeId = some node
  · by_cases hIn :
        row.cameraId ∈
          reports.map CameraStatusReport.cameraId
    · have hKnown :
          knownCameras [row] node
              (reports.map CameraStatusReport.cameraId) =
            [{ cameraId := row.cameraId
               status := row.status
               name := row.name }] := by
        simp only [knownCameras, List.filter_cons,
          List.contains_iff_mem.mpr hIn, hNode,
          beq_self_eq_true, Bool.and_self, if_true,
          List.filter_nil, List.map_cons, List.map_nil]
      rw [hKnown]
      exact httpLoop_of_own hNode reports
    · have hKnown :
          knownCameras [row] node
              (reports.map CameraStatusReport.cameraId) =
            [] := by
        rw [knownCameras, List.map_eq_nil_iff,
          List.filter_eq_nil_iff]
        intro camera hCamera hBoth
        cases List.mem_singleton.mp hCamera
        rw [Bool.and_eq_true, List.contains_iff_mem] at hBoth
        exact hIn hBoth.1
      have hNone : ownStatuses row node reports = [] := by
        rw [ownStatuses, List.map_eq_nil_iff,
          List.filter_eq_nil_iff]
        intro report hReport hOwn
        rw [isOwnCamera, Bool.and_eq_true, beq_iff_eq]
          at hOwn
        exact
          hIn (hOwn.1 ▸ List.mem_map_of_mem hReport)
      rw [hKnown, httpLoop_of_unknown, hNone]
      exact ⟨row, rfl, rfl⟩
  · have hKnown :
        knownCameras [row] node
            (reports.map CameraStatusReport.cameraId) =
          [] := by
      simp [knownCameras, hNode]
    rw [hKnown, httpLoop_of_unknown,
      ownStatuses_of_foreign hNode]
    exact ⟨row, rfl, rfl⟩

--------------------
-- Over the WebSocket
--------------------

/- The handler sees a payload as its reports. -/
theorem wsLoop_reports
    (known : List WsKnown)
    (rows : List CameraRow)
    (cameras : List WsCamera) :
    wsLoop node now known rows cameras =
      wsLoop node now known rows
        ((cameras.filterMap WsCamera.report).map
          CameraStatusReport.entry) := by
  induction cameras generalizing rows with
  | nil => rfl
  | cons camera rest ih =>
      rcases camera with ⟨cameraId, status, lastError⟩
      cases cameraId with
      | none => exact ih rows
      | some cameraId =>
          rw [List.filterMap_cons]
          simp only [WsCamera.report, Option.map_some,
            List.map_cons, wsLoop, CameraStatusReport.entry,
            Option.getD_some]
          cases known.find? (·.cameraId == cameraId) with
          | none => exact ih rows
          | some camera =>
              dsimp only
              rw [ih]

theorem report_ids (cameras : List WsCamera) :
    ((cameras.filterMap WsCamera.report).map
        CameraStatusReport.entry).filterMap
          WsCamera.cameraId =
      cameras.filterMap WsCamera.cameraId := by
  rw [entry_ids]
  induction cameras with
  | nil => rfl
  | cons camera rest ih =>
      rcases camera with ⟨cameraId, status, lastError⟩
      cases cameraId with
      | none => exact ih
      | some cameraId => exact congrArg (List.cons cameraId) ih

theorem handleHeartbeat_reports
    (rows : List CameraRow)
    (cameras : List WsCamera) :
    handleHeartbeat rows node now cameras =
      handleHeartbeat rows node now
        ((cameras.filterMap WsCamera.report).map
          CameraStatusReport.entry) := by
  rw [handleHeartbeat, handleHeartbeat, report_ids]
  cases
      decodeKnown
        (knownCameras rows node
          (cameras.filterMap WsCamera.cameraId)) with
  | none => rfl
  | some known => exact wsLoop_reports known rows cameras

/- Without a known camera nothing is written. -/
theorem wsLoop_of_unknown
    (rows : List CameraRow)
    (cameras : List WsCamera) :
    wsLoop node now [] rows cameras = (rows, []) := by
  induction cameras with
  | nil => rfl
  | cons camera rest ih =>
      rw [wsLoop]
      cases camera.cameraId with
      | none => exact ih
      | some cameraId => exact ih

theorem handleHeartbeat_of_null
    {row : CameraRow}
    (hNull : row.status = none)
    (cameras : List WsCamera) :
    handleHeartbeat [row] node now cameras = ([row], []) := by
  cases hKeep :
      (cameras.filterMap WsCamera.cameraId).contains
          row.cameraId &&
        row.nodeId == some node with
  | true =>
      simp only [handleHeartbeat, knownCameras,
        List.filter_cons, hKeep, if_true, List.filter_nil,
        List.map_cons, List.map_nil, decodeKnown, hNull]
  | false =>
      simp only [handleHeartbeat, knownCameras,
        List.filter_cons, hKeep, Bool.false_eq_true, if_false,
        List.filter_nil, List.map_nil, decodeKnown]
      exact wsLoop_of_unknown [row] cameras

/-
  A list that names the camera once at most compares it with
  nothing but its stored status.
-/
theorem repeatsAnnounceAlike_of_once
    {row : CameraRow}
    {reports : List CameraStatusReport}
    (hOnce : (ownStatuses row node reports).length ≤ 1) :
    RepeatsAnnounceAlike [row] node reports := by
  rintro before report after rfl row' hRow
  have hIs : row' = row :=
    List.mem_singleton.mp (List.mem_of_find?_eq_some hRow)
  subst hIs
  have hOwn : isOwnCamera node report.cameraId row' = true :=
    List.find?_some hRow
  have hBefore :
      before.filter
          (fun other =>
            isOwnCamera node other.cameraId row') = [] := by
    rw [ownStatuses, List.length_map, List.filter_append,
      List.filter_cons, if_pos hOwn, List.length_append,
      List.length_cons] at hOnce
    exact List.eq_nil_of_length_eq_zero (by omega)
  have hNone :
      before.reverse.find?
        (·.cameraId == report.cameraId) = none := by
    rw [List.find?_eq_none]
    intro other hOther hSame
    have hNot :=
      List.filter_eq_nil_iff.mp hBefore other
        (List.mem_reverse.mp hOther)
    rw [beq_iff_eq.mp hSame] at hNot
    exact hNot hOwn
  rw [lastReported, hNone]
  rfl

/- Then the handler does what the route does. -/
theorem handleHeartbeat_of_once
    {row : CameraRow}
    {cameras : List WsCamera}
    (hStatus : row.status ≠ none)
    (hOnce :
      (ownStatuses row node
        (cameras.filterMap WsCamera.report)).length ≤ 1) :
    handleHeartbeat [row] node now cameras =
      nodeHeartbeat [row] node now
        (cameras.filterMap WsCamera.report) := by
  have hSet :
      StatusesSet [row] node
        (cameras.filterMap WsCamera.report) := by
    intro other hOther _ _
    rw [List.mem_singleton.mp hOther]
    exact hStatus
  rw [handleHeartbeat_reports, heartbeats_agree_of_set hSet]
  exact repeatsAnnounceAlike_of_once hOnce

/- What it stores and announces of one camera. -/
theorem handleHeartbeat_of_one
    (row : CameraRow)
    (node now : Int)
    {cameras : List WsCamera}
    (hOnce :
      (ownStatuses row node
        (cameras.filterMap WsCamera.report)).length ≤ 1) :
    ∃ row' : CameraRow,
      handleHeartbeat [row] node now cameras =
        ([row'],
          transitionsOf row.cameraId row.name row.status
            (socketStatuses row node cameras)) ∧
      row'.status =
        ((socketStatuses row node cameras).getLast?).or
          row.status := by
  unfold socketStatuses
  cases hStatus : row.status with
  | none =>
      exact
        ⟨row, handleHeartbeat_of_null hStatus cameras, hStatus⟩
  | some status =>
      have hSome : row.status ≠ none := by
        rw [hStatus]
        exact Option.some_ne_none status
      have hNotNone : ¬ row.status.isNone = true := by
        rw [hStatus]
        exact Bool.false_ne_true
      rw [handleHeartbeat_of_once hSome hOnce, ← hStatus,
        if_neg hNotNone]
      exact nodeHeartbeat_of_one row node now _

--------------------
-- Why the Last Notification Says What It Says
--------------------

/- The direction of the newest attempt. -/
def lastDirection (notifier : Notifier) : Option Direction :=
  notifier.log.head?.map
    (fun attempt => attempt.transition.direction)

/-
  An attempt came less than a minute after one that was
  emitted in the same direction.
-/
def RepeatsEmitted
    (attempt : Attempt)
    (earlier : List Attempt) : Prop :=
  ∃ emitted ∈ earlier,
    emitted.emitted = true ∧
      emitted.transition.direction =
        attempt.transition.direction ∧
      secondsSince emitted.instant attempt.instant <
        transitionDebounceSeconds

/- The newest attempt, in this direction, was dropped so. -/
def DroppedRepeat
    (notifier : Notifier)
    (direction : Direction) : Prop :=
  ∃ last earlier,
    notifier.log = last :: earlier ∧
      last.transition.direction = direction ∧
      last.emitted = false ∧
      RepeatsEmitted last earlier

/-
  After it was last stored as offline the camera was first
  stored as something that is not live either.
-/
def LeftThroughOther
    (statuses : List (Option String)) : Prop :=
  ∃ newer other older,
    statuses = newer ++ some other :: some "offline" :: older ∧
      some "offline" ∉ newer ∧
      other ≠ "offline" ∧
      isLive other = false

/- What the log keeps of the debounce. -/
structure Debounced (notifier : Notifier) : Prop where
  remembered :
    ∀ direction instant,
      notifier.debounce direction = some instant →
        ∃ attempt ∈ notifier.log,
          attempt.emitted = true ∧
            attempt.transition.direction = direction ∧
            attempt.instant = instant
  dropped :
    ∀ last earlier,
      notifier.log = last :: earlier →
        last.emitted = false →
          RepeatsEmitted last earlier

/- What the newest attempt says of the newest status. -/
structure Tracks
    (statuses : List (Option String))
    (notifier : Notifier) : Prop where
  offline :
    statuses.head? = some (some "offline") →
      ∀ direction,
        lastDirection notifier = some direction →
          direction = .offline
  other :
    statuses.head? ≠ some (some "offline") →
      ∀ direction,
        lastDirection notifier = some direction →
          direction = .online ∨ LeftThroughOther statuses

theorem lastDirection_emit
    (notifier : Notifier)
    (transition : CameraTransition)
    (now : Nat) :
    lastDirection
        (emitCameraTransition notifier transition now) =
      some transition.direction := by
  unfold emitCameraTransition
  split
  · rfl
  · rfl

theorem debounced_emit
    {notifier : Notifier}
    (hDebounced : Debounced notifier)
    (transition : CameraTransition)
    (now : Nat) :
    Debounced
      (emitCameraTransition notifier transition now) := by
  unfold emitCameraTransition
  split
  · constructor
    · intro direction instant hInstant
      dsimp only at hInstant
      split at hInstant
      · rename_i hSame
        cases hInstant
        exact ⟨_, List.mem_cons_self, rfl, hSame.symm, rfl⟩
      · rcases hDebounced.remembered _ _ hInstant with
          ⟨attempt, hIn, hRest⟩
        exact ⟨attempt, List.mem_cons_of_mem _ hIn, hRest⟩
    · intro last earlier hLog hDropped
      cases hLog
      cases hDropped
  · rename_i hNot
    constructor
    · intro direction instant hInstant
      rcases hDebounced.remembered _ _ hInstant with
        ⟨attempt, hIn, hRest⟩
      exact ⟨attempt, List.mem_cons_of_mem _ hIn, hRest⟩
    · intro last earlier hLog _
      cases hLog
      cases hLast :
          notifier.debounce transition.direction with
      | none =>
          rw [hLast] at hNot
          exact absurd rfl hNot
      | some instant =>
          rw [hLast] at hNot
          rcases hDebounced.remembered _ _ hLast with
            ⟨attempt, hIn, hEmitted, hDirection, rfl⟩
          refine
            ⟨attempt, hIn, hEmitted, hDirection, ?_⟩
          simpa [shouldEmitTransition] using hNot

theorem debounced_emitTransitions
    {notifier : Notifier}
    (hDebounced : Debounced notifier)
    (clock : Nat → Nat)
    (transitions : List CameraTransition) :
    Debounced
      (emitTransitions notifier clock transitions) := by
  induction transitions generalizing notifier clock with
  | nil => exact hDebounced
  | cons transition rest ih =>
      exact ih (debounced_emit hDebounced transition _) _

/- An offline camera is left to a live or another status. -/
theorem leftThroughOther_cons
    {statuses : List (Option String)}
    {status : String}
    (hLeft : LeftThroughOther statuses)
    (hStatus : status ≠ "offline") :
    LeftThroughOther (some status :: statuses) := by
  rcases hLeft with ⟨newer, other, older, rfl, hNewer, hOther⟩
  refine ⟨some status :: newer, other, older, rfl, ?_, hOther⟩
  rintro (_ | ⟨_, hIn⟩)
  · exact hStatus rfl
  · exact hNewer hIn

/- Going offline was attempted last. -/
theorem tracks_offline
    {statuses : List (Option String)}
    {notifier : Notifier}
    (hLast : lastDirection notifier = some .offline) :
    Tracks (some "offline" :: statuses) notifier where
  offline := by
    intro _ direction hDirection
    cases hLast.symm.trans hDirection
    rfl
  other := fun hNot => absurd rfl hNot

/- Coming back was attempted last. -/
theorem tracks_online
    {statuses : List (Option String)}
    {notifier : Notifier}
    {status : String}
    (hStatus : status ≠ "offline")
    (hLast : lastDirection notifier = some .online) :
    Tracks (some status :: statuses) notifier where
  offline := fun hOffline =>
    absurd (Option.some.inj (Option.some.inj hOffline)) hStatus
  other := by
    intro _ direction hDirection
    cases hLast.symm.trans hDirection
    exact Or.inl rfl

/- Nothing is announced. -/
theorem tracks_silent
    {previous : Option String}
    {older : List (Option String)}
    {notifier : Notifier}
    {status : String}
    (hTracks : Tracks (previous :: older) notifier)
    (hSilent : cameraTransition previous status = none) :
    Tracks (some status :: previous :: older) notifier := by
  constructor
  · intro hOffline
    cases hOffline
    have hPrevious : previous = some "offline" := by
      by_contra hNot
      rw [cameraTransition_eq_offline_iff.mpr ⟨rfl, hNot⟩]
        at hSilent
      cases hSilent
    exact hTracks.offline (congrArg some hPrevious)
  · intro hNot direction hDirection
    have hStatus : status ≠ "offline" := by
      rintro rfl
      exact hNot rfl
    by_cases hPrevious : previous = some "offline"
    · refine
        Or.inr
          ⟨[], status, older, by rw [hPrevious]; rfl,
            List.not_mem_nil, hStatus, ?_⟩
      by_contra hLive
      rw [cameraTransition_eq_online_iff.mpr
        ⟨(Bool.not_eq_false _).mp hLive, hPrevious⟩] at hSilent
      cases hSilent
    · have hSame :
          (previous :: older).head? ≠ some (some "offline") :=
        fun hHead => hPrevious (Option.some.inj hHead)
      exact
        (hTracks.other hSame direction hDirection).imp_right
          (fun hLeft => leftThroughOther_cons hLeft hStatus)

/- One status is stored, and its transition announced. -/
theorem tracks_store
    {previous : Option String}
    {older : List (Option String)}
    {notifier : Notifier}
    (hTracks : Tracks (previous :: older) notifier)
    (status : String)
    (cameraId shown : String)
    (clock : Nat → Nat) :
    Tracks (some status :: previous :: older)
      (emitTransitions notifier clock
        ((cameraTransition previous status).map
          (fun direction =>
            { cameraId := cameraId
              displayName := shown
              direction := direction })).toList) := by
  cases hTransition : cameraTransition previous status with
  | none => exact tracks_silent hTracks hTransition
  | some direction =>
      cases direction with
      | offline =>
          rcases cameraTransition_eq_offline_iff.mp
            hTransition with ⟨rfl, -⟩
          exact tracks_offline (lastDirection_emit _ _ _)
      | online =>
          have hLive :=
            (cameraTransition_eq_online_iff.mp hTransition).1
          refine tracks_online ?_ (lastDirection_emit _ _ _)
          rintro rfl
          cases hLive

theorem emitTransitions_append
    (notifier : Notifier)
    (clock : Nat → Nat)
    (first second : List CameraTransition) :
    emitTransitions notifier clock (first ++ second) =
      emitTransitions (emitTransitions notifier clock first)
        (fun reading => clock (reading + first.length))
        second := by
  induction first generalizing notifier clock with
  | nil => rfl
  | cons transition rest ih =>
      rw [List.cons_append, emitTransitions, ih,
        emitTransitions, List.length_cons]
      simp only [Nat.add_assoc]

/- All the statuses of one heartbeat, in order. -/
theorem tracks_storeAll
    {previous : Option String}
    {older : List (Option String)}
    {notifier : Notifier}
    (hTracks : Tracks (previous :: older) notifier)
    (statuses : List String)
    (cameraId name : String)
    (clock : Nat → Nat) :
    Tracks
      ((statuses.map some).reverse ++ previous :: older)
      (emitTransitions notifier clock
        (transitionsOf cameraId name previous statuses)) := by
  induction statuses generalizing previous older notifier clock
    with
  | nil => exact hTracks
  | cons status rest ih =>
      rw [transitionsOf, emitTransitions_append,
        List.map_cons, List.reverse_cons, List.append_assoc]
      exact ih (tracks_store hTracks status _ _ clock) _

--------------------
-- Every Run
--------------------

/- Over the WebSocket the camera is named once at most. -/
def NamesOnce (feed : Feed) : Event → Prop
| .socket node _ cameras _ =>
    (ownStatuses feed.row node
      (cameras.filterMap WsCamera.report)).length ≤ 1
| _ => True

instance (feed : Feed) : (event : Event) →
    Decidable (NamesOnce feed event)
| .socket node _ cameras _ =>
    inferInstanceAs
      (Decidable
        ((ownStatuses feed.row node
          (cameras.filterMap WsCamera.report)).length ≤ 1))
| .heartbeat _ _ _ _ => isTrue trivial
| .sweep _ _ _ => isTrue trivial

/- The invariant of a camera's feed. -/
structure Explained (feed : Feed) : Prop where
  current : feed.statuses.head? = some feed.row.status
  debounced : Debounced feed.notifier
  tracks : Tracks feed.statuses feed.notifier

theorem explained_initial (row : CameraRow) :
    Explained (Feed.initial row) := by
  refine ⟨rfl, ⟨?_, ?_⟩, ⟨?_, ?_⟩⟩
  · intro direction instant hInstant
    cases hInstant
  · intro last earlier hLog
    cases hLog
  · intro _ direction hDirection
    cases hDirection
  · intro _ direction hDirection
    cases hDirection

theorem head?_statuses
    (statuses : List String)
    (previous : Option String)
    (older : List (Option String)) :
    ((statuses.map some).reverse ++ previous :: older).head? =
      some (statuses.getLast?.or previous) := by
  rw [List.head?_append, List.head?_reverse,
    List.getLast?_map]
  cases statuses.getLast? with
  | none => rfl
  | some last => rfl

/- A swept camera goes offline from another status. -/
theorem sweepCamera_eq_some
    {row row' : CameraRow}
    {cutoff : Int}
    (hSwept : sweepCamera row cutoff = some row') :
    row.status ≠ some "offline" ∧
      row' = { row with status := some "offline" } := by
  unfold sweepCamera at hSwept
  split at hSwept
  · rename_i status lastSeen hStatus _
    split at hSwept
    · rename_i hBoth
      refine ⟨?_, (Option.some.inj hSwept).symm⟩
      rw [hStatus]
      exact fun hOffline => hBoth.1 (Option.some.inj hOffline)
    · cases hSwept
  · cases hSwept

/- A heartbeat's statuses are stored and announced. -/
theorem explained_heard
    {feed : Feed}
    (hExplained : Explained feed)
    {result : List CameraRow × List CameraTransition}
    {stored : List String}
    (hResult :
      ∃ row' : CameraRow,
        result =
          ([row'],
            transitionsOf feed.row.cameraId feed.row.name
              feed.row.status stored) ∧
        row'.status = stored.getLast?.or feed.row.status)
    (clock : Nat → Nat) :
    Explained (feed.heard result stored clock) := by
  rcases feed with ⟨row, statuses, notifier⟩
  rcases hExplained with ⟨hCurrent, hDebounced, hTracks⟩
  rcases hResult with ⟨row', rfl, hStatus⟩
  cases statuses with
  | nil => cases hCurrent
  | cons previous older =>
      have hPrevious : previous = row.status :=
        Option.some.inj hCurrent
      subst hPrevious
      refine
        ⟨?_, debounced_emitTransitions hDebounced _ _,
          tracks_storeAll hTracks _ _ _ clock⟩
      exact
        (head?_statuses _ _ _).trans
          (congrArg some hStatus.symm)

/- And so is the sweep's. -/
theorem explained_sweep
    {feed : Feed}
    (hExplained : Explained feed)
    (now timeoutSeconds : Int)
    (clock : Nat → Nat) :
    Explained
      (feed.step (.sweep now timeoutSeconds clock)) := by
  rcases feed with ⟨row, statuses, notifier⟩
  rw [Feed.step]
  cases hSwept :
      sweepCamera row (now - timeoutSeconds * 1000000) with
  | none => exact hExplained
  | some row' =>
      rcases hExplained with ⟨hCurrent, hDebounced, hTracks⟩
      rcases sweepCamera_eq_some hSwept with ⟨hStatus, rfl⟩
      cases statuses with
      | nil => cases hCurrent
      | cons previous older =>
          have hPrevious : previous = row.status :=
            Option.some.inj hCurrent
          subst hPrevious
          have hStored :=
            tracks_store hTracks "offline" row.cameraId
              (displayName row.name row.cameraId) clock
          rw [cameraTransition_eq_offline_iff.mpr
            ⟨rfl, hStatus⟩] at hStored
          exact
            ⟨rfl, debounced_emitTransitions hDebounced _ _,
              hStored⟩

theorem explained_step
    (feed : Feed)
    (event : Event)
    (hExplained : Explained feed)
    (hOnce : NamesOnce feed event) :
    Explained (feed.step event) := by
  cases event with
  | heartbeat node now reports clock =>
      exact
        explained_heard hExplained
          (nodeHeartbeat_of_one feed.row node now reports)
          clock
  | socket node now cameras clock =>
      exact
        explained_heard hExplained
          (handleHeartbeat_of_one feed.row node now hOnce)
          clock
  | sweep now timeoutSeconds clock =>
      exact
        explained_sweep hExplained now timeoutSeconds clock

theorem explained_exec
    (row : CameraRow)
    {events : List Event}
    (hOnce :
      Run.Meets Feed.step NamesOnce (Feed.initial row)
        events) :
    Explained
      (Run.exec Feed.step (Feed.initial row) events) :=
  Run.invariant_of_meets explained_step
    (explained_initial row) hOnce

/- The newest notification is of this kind, if there is one. -/
def LastSays (feed : Feed) (kind : String) : Prop :=
  ∀ notification ∈ lastSent feed.notifier,
    notification.kind = kind

instance (feed : Feed) (kind : String) :
    Decidable (LastSays feed kind) :=
  inferInstanceAs
    (Decidable
      (∀ notification ∈ lastSent feed.notifier,
        notification.kind = kind))

/- It went out for the newest attempt, or that was dropped. -/
theorem lastSays_or_dropped
    {feed : Feed}
    (hDebounced : Debounced feed.notifier)
    {direction : Direction}
    (hLast :
      ∀ other,
        lastDirection feed.notifier = some other →
          other = direction) :
    LastSays feed direction.kind ∨
      DroppedRepeat feed.notifier direction := by
  cases hLog : feed.notifier.log with
  | nil =>
      refine Or.inl ?_
      intro notification hSent
      rw [lastSent, hLog] at hSent
      cases hSent
  | cons last earlier =>
      have hDirection : last.transition.direction = direction := by
        apply hLast
        rw [lastDirection, hLog]
        rfl
      cases hEmitted : last.emitted with
      | true =>
          refine Or.inl ?_
          intro notification hSent
          rw [lastSent, hLog, List.find?_cons_of_pos hEmitted]
            at hSent
          cases hSent
          exact congrArg Direction.kind hDirection
      | false =>
          exact
            Or.inr
              ⟨last, earlier, hLog, hDirection, hEmitted,
                hDebounced.dropped last earlier hLog hEmitted⟩

/-
  The newest notification says where the camera is. The
  exceptions are that its newest transition was dropped as a
  repeat, and for a live camera that it left `offline` through
  a status that is neither.
-/
theorem last_notification_explained
    (row : CameraRow)
    (events : List Event)
    (hOnce :
      Run.Meets Feed.step NamesOnce (Feed.initial row)
        events) :
    let feed := Run.exec Feed.step (Feed.initial row) events
    (feed.row.status = some "offline" →
      LastSays feed "camera_offline" ∨
        DroppedRepeat feed.notifier .offline) ∧
    (∀ status,
      feed.row.status = some status →
        isLive status = true →
          LastSays feed "camera_online" ∨
            DroppedRepeat feed.notifier .online ∨
            LeftThroughOther feed.statuses) := by
  intro feed
  have hExplained : Explained feed :=
    explained_exec row hOnce
  rcases hExplained with ⟨hCurrent, hDebounced, hTracks⟩
  constructor
  · intro hOffline
    rw [hOffline] at hCurrent
    exact
      lastSays_or_dropped hDebounced (hTracks.offline hCurrent)
  · intro status hStatus hLive
    by_cases hLeft : LeftThroughOther feed.statuses
    · exact Or.inr (Or.inr hLeft)
    · have hNot :
          feed.statuses.head? ≠ some (some "offline") := by
        intro hHead
        rw [hHead, hStatus] at hCurrent
        cases hCurrent
        cases hLive
      have hOnline :=
        lastSays_or_dropped hDebounced
          (fun direction hDirection =>
            (hTracks.other hNot direction
              hDirection).resolve_right hLeft)
      exact hOnline.imp_right Or.inl

/- A heartbeat that reports the porch camera. -/
def reportsAt (second : Nat) (status : String) : Event :=
  .heartbeat 1 (second * 1000000)
    [{ cameraId := "cam", status := status
       lastError := none }]
    (fun _ => second * 1000000000)

/- The same reports over the WebSocket. -/
def sendsAt (second : Nat) (statuses : List String) : Event :=
  .socket 1 (second * 1000000)
    (statuses.map
      (fun status =>
        { cameraId := some "cam", status := some status
          lastError := none }))
    (fun _ => second * 1000000000)

/- Gone, swept while away, and back an hour later. -/
def outage : List Event :=
  [reportsAt 0 "starting", .sweep 100000000 90 (fun _ => 100),
    sendsAt 3600 ["streaming"]]

/- The porch camera after that. -/
def afterOutage : Feed :=
  Run.exec Feed.step (Feed.initial porch) outage

theorem last_notification_explained_outage :
    LastSays afterOutage "camera_online" ∨
      DroppedRepeat afterOutage.notifier .online ∨
      LeftThroughOther afterOutage.statuses :=
  (last_notification_explained porch outage (by decide)).2
    "streaming" (by decide) (by decide)

/- The newest notification says where the camera is. -/
def Truthful (feed : Feed) : Prop :=
  (feed.row.status = some "offline" →
    LastSays feed "camera_offline") ∧
  (∀ status ∈ feed.row.status,
    isLive status = true → LastSays feed "camera_online")

instance (feed : Feed) : Decidable (Truthful feed) :=
  inferInstanceAs (Decidable (_ ∧ _))

/- Gone, back and gone again within a minute. -/
def flap : List Event :=
  [reportsAt 0 "offline", reportsAt 10 "streaming",
    reportsAt 20 "offline"]

/- Back through the statuses of a starting node. -/
def restart : List Event :=
  [reportsAt 0 "offline", reportsAt 300 "starting",
    reportsAt 310 "streaming"]

/- Gone and back in one payload. -/
def blink : List Event :=
  [sendsAt 0 ["offline", "streaming"]]

theorem flap_contradicts :
    ¬ Truthful
        (Run.exec Feed.step (Feed.initial porch) flap) ∧
      ¬ Truthful
        (Run.exec Feed.step (Feed.initial porch) restart) ∧
      ¬ Truthful
        (Run.exec Feed.step (Feed.initial porch) blink) := by
  decide

end Heartbeat

end SentinelCommand
