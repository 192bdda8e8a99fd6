import Mathlib.Data.List.ReduceOption
import SentinelCommand.Heartbeat.Reports

/-
  Whether the HTTP heartbeat and the WebSocket heartbeat do
  the same with one list of camera reports.

  They write the same rows. They announce the same when no
  report of a camera named before in the list would announce
  something else compared with that report than compared
  with the stored status. A status that is NULL stops the
  WebSocket handler before it writes anything.

  Main declarations:
    * `Heartbeat.lastReported`
    * `Heartbeat.heartbeats_agree_iff`
    * `Heartbeat.repeated_report_disagrees`
-/

--------------------
-- Lists of Options
--------------------

namespace SentinelCommand

namespace Heartbeat

variable {α : Type}

/- Fewer present entries than the other list has. -/
theorem length_reduceOption_le
    {first second : List (Option α)}
    (hWithin :
      List.Forall₂ (fun a b => a = none ∨ a = b) first
        second) :
    first.reduceOption.length ≤ second.reduceOption.length := by
  induction hWithin with
  | nil => exact Nat.le_refl 0
  | @cons a b first second hHead _ ih =>
      rcases hHead with rfl | rfl
      · rw [List.reduceOption_cons_of_none]
        cases b with
        | none => rwa [List.reduceOption_cons_of_none]
        | some b =>
            rw [List.reduceOption_cons_of_some,
              List.length_cons]
            omega
      · cases a with
        | none =>
            rwa [List.reduceOption_cons_of_none,
              List.reduceOption_cons_of_none]
        | some a =>
            rw [List.reduceOption_cons_of_some,
              List.reduceOption_cons_of_some, List.length_cons,
              List.length_cons]
            omega

/-
  A list whose entries are absent or those of the other has
  the same present entries only if it is the other.
-/
theorem eq_of_reduceOption_eq
    {first second : List (Option α)}
    (hWithin :
      List.Forall₂ (fun a b => a = none ∨ a = b) first second)
    (hSame : first.reduceOption = second.reduceOption) :
    first = second := by
  induction hWithin with
  | nil => rfl
  | @cons a b first second hHead hTail ih =>
      have hLength := length_reduceOption_le hTail
      cases a with
      | none =>
          rw [List.reduceOption_cons_of_none] at hSame
          cases b with
          | none =>
              rw [List.reduceOption_cons_of_none] at hSame
              rw [ih hSame]
          | some b =>
              rw [List.reduceOption_cons_of_some] at hSame
              rw [hSame, List.length_cons] at hLength
              omega
      | some a =>
          rcases hHead with hNone | rfl
          · cases hNone
          · rw [List.reduceOption_cons_of_some,
              List.reduceOption_cons_of_some] at hSame
            rw [ih (List.cons.inj hSame).2]

--------------------
-- Rows
--------------------

variable {node now : Int}

/- The ids stay the same as the loop goes on. -/
theorem find?_setPrevious
    (known : List Known)
    (update : CameraStatusReport)
    (cameraId : String) :
    (setPrevious known update).find? (·.cameraId == cameraId) =
      (known.find? (·.cameraId == cameraId)).map
        (fun camera =>
          if update.cameraId == cameraId then
            { camera with status := some update.status }
          else
            camera) := by
  have hIds :
      ((fun camera : Known => camera.cameraId == cameraId) ∘
          fun camera =>
            if camera.cameraId == update.cameraId then
              { camera with status := some update.status }
            else
              camera) =
        fun camera => camera.cameraId == cameraId := by
    funext camera
    dsimp only [Function.comp]
    split <;> rfl
  rw [setPrevious, List.find?_map, hIds]
  cases hFound : known.find? (·.cameraId == cameraId) with
  | none => rfl
  | some camera =>
      have hId : camera.cameraId = cameraId :=
        by simpa using List.find?_some hFound
      simp only [Option.map_some, hId]
      by_cases hSame : update.cameraId = cameraId
      · simp [hSame]
      · simp [hSame, Ne.symm hSame]

/- The rows after the reports whose cameras are known. -/
def written
    (node now : Int)
    (isKnown : String → Bool)
    (rows : List CameraRow)
    (reports : List CameraStatusReport) : List CameraRow :=
  reports.foldl
    (fun rows report =>
      if isKnown report.cameraId then
        updateCamera rows node report.cameraId report.status now
          (if keepsError report.status then
            report.lastError
          else
            none)
      else
        rows)
    rows

theorem httpLoop_rows
    (known : List Known)
    (rows : List CameraRow)
    (reports : List CameraStatusReport) :
    (httpLoop node now known rows reports).1 =
      written node now
        (fun cameraId =>
          (known.find? (·.cameraId == cameraId)).isSome)
        rows reports := by
  induction reports generalizing known rows with
  | nil => rfl
  | cons report rest ih =>
      rw [httpLoop]
      cases hFound :
          known.find? (·.cameraId == report.cameraId) with
      | none =>
          dsimp only
          rw [ih]
          simp only [written, List.foldl_cons, hFound,
            Option.isSome_none, Bool.false_eq_true, if_false]
      | some camera =>
          dsimp only
          rw [ih]
          simp only [written, find?_setPrevious,
            Option.isSome_map, List.foldl_cons, hFound,
            Option.isSome_some, if_true]

/- A known camera with its status read. -/
def WsKnown.read (camera : WsKnown) : Known where
  cameraId := camera.cameraId
  status := some camera.status
  name := camera.name

theorem known_of_decodeKnown
    {known : List Known}
    {decoded : List WsKnown}
    (hDecoded : decodeKnown known = some decoded) :
    known = decoded.map WsKnown.read := by
  induction known generalizing decoded with
  | nil =>
      cases hDecoded
      rfl
  | cons camera rest ih =>
      rw [decodeKnown] at hDecoded
      split at hDecoded
      · rename_i status others hStatus hRest
        cases hDecoded
        rw [List.map_cons, ← ih hRest]
        rcases camera with ⟨cameraId, _, name⟩
        simp only at hStatus
        rw [hStatus]
        rfl
      · cases hDecoded

/- Only a NULL status fails the read. -/
theorem decodeKnown_eq_none_iff
    {known : List Known} :
    decodeKnown known = none ↔
      ∃ camera ∈ known, camera.status = none := by
  induction known with
  | nil => simp [decodeKnown]
  | cons camera rest ih =>
      rw [decodeKnown]
      cases hStatus : camera.status with
      | none => simp [hStatus]
      | some status =>
          cases hRest : decodeKnown rest with
          | none => simp [hStatus, ih.mp hRest]
          | some others =>
              have hNone := ih.not.mp (by rw [hRest]; nofun)
              simp [hStatus, hNone]

theorem find?_decoded
    (decoded : List WsKnown)
    (cameraId : String) :
    (decoded.map WsKnown.read).find?
        (·.cameraId == cameraId) =
      (decoded.find? (·.cameraId == cameraId)).map
        WsKnown.read := by
  rw [List.find?_map]
  rfl

theorem wsLoop_rows
    (decoded : List WsKnown)
    (rows : List CameraRow)
    (reports : List CameraStatusReport) :
    (wsLoop node now decoded rows
        (reports.map CameraStatusReport.entry)).1 =
      written node now
        (fun cameraId =>
          ((decoded.map WsKnown.read).find?
            (·.cameraId == cameraId)).isSome)
        rows reports := by
  simp only [find?_decoded, Option.isSome_map]
  induction reports generalizing rows with
  | nil => rfl
  | cons report rest ih =>
      rw [List.map_cons, wsLoop]
      simp only [CameraStatusReport.entry, Option.getD_some]
      cases hFound :
          decoded.find? (·.cameraId == report.cameraId) with
      | none =>
          dsimp only
          rw [ih]
          simp only [written, List.foldl_cons, hFound,
            Option.isSome_none, Bool.false_eq_true, if_false]
      | some camera =>
          dsimp only
          rw [ih]
          simp only [written, List.foldl_cons, hFound,
            Option.isSome_some, if_true]
          rfl

--------------------
-- Announcements
--------------------

/- What each report announces over HTTP. -/
def announcements :
    List Known → List CameraStatusReport →
      List (Option CameraTransition)
| _, [] => []
| known, report :: rest =>
    announces known report ::
      announcements (setPrevious known report) rest

theorem reduceOption_cons
    {α : Type}
    (first : Option α)
    (rest : List (Option α)) :
    (first :: rest).reduceOption =
      first.toList ++ rest.reduceOption := by
  cases first with
  | none => rfl
  | some a => rfl

theorem announces_of_unknown
    {known : List Known}
    {report : CameraStatusReport}
    (hNone :
      known.find? (·.cameraId == report.cameraId) = none) :
    announces known report = none := by
  rw [announces, hNone]
  rfl

/- A report of no known camera changes nothing known. -/
theorem setPrevious_of_unknown
    {known : List Known}
    {report : CameraStatusReport}
    (hNone :
      known.find? (·.cameraId == report.cameraId) = none) :
    setPrevious known report = known := by
  rw [setPrevious]
  conv_rhs => rw [← List.map_id known]
  apply List.map_congr_left
  intro camera hCamera
  have hNot := List.find?_eq_none.mp hNone camera hCamera
  exact if_neg hNot

theorem httpLoop_transitions
    (known : List Known)
    (rows : List CameraRow)
    (reports : List CameraStatusReport) :
    (httpLoop node now known rows reports).2 =
      (announcements known reports).reduceOption := by
  induction reports generalizing known rows with
  | nil => rfl
  | cons report rest ih =>
      rw [httpLoop, announcements, reduceOption_cons]
      cases hFound :
          known.find? (·.cameraId == report.cameraId) with
      | none =>
          rw [announces_of_unknown hFound,
            setPrevious_of_unknown hFound]
          exact ih known rows
      | some camera =>
          dsimp only
          rw [ih]

theorem wsLoop_transitions
    (decoded : List WsKnown)
    (rows : List CameraRow)
    (reports : List CameraStatusReport) :
    (wsLoop node now decoded rows
        (reports.map CameraStatusReport.entry)).2 =
      (reports.map
        (announces
          (decoded.map WsKnown.read))).reduceOption := by
  induction reports generalizing rows with
  | nil => rfl
  | cons report rest ih =>
      rw [List.map_cons, List.map_cons, wsLoop,
        reduceOption_cons]
      simp only [CameraStatusReport.entry, Option.getD_some]
      cases hFound :
          decoded.find? (·.cameraId == report.cameraId) with
      | none =>
          rw [announces, find?_decoded, hFound]
          exact ih rows
      | some camera =>
          dsimp only
          rw [ih, announces, find?_decoded, hFound]
          rfl

--------------------
-- Repeated Reports
--------------------

variable {known fixed : List Known}
variable {reports : List CameraStatusReport}

/- The node's row of a camera. -/
def ownCamera
    (rows : List CameraRow)
    (node : Int)
    (cameraId : String) : Option CameraRow :=
  rows.find? (isOwnCamera node cameraId)

/- The status of the last report so far, or the stored one. -/
def lastReported
    (before : List CameraStatusReport)
    (cameraId : String)
    (stored : Option String) : Option String :=
  ((before.reverse.find? (·.cameraId == cameraId)).map
    CameraStatusReport.status).or stored

theorem lastReported_cons
    (report : CameraStatusReport)
    (before : List CameraStatusReport)
    (cameraId : String)
    (stored : Option String) :
    lastReported (report :: before) cameraId stored =
      lastReported before cameraId
        (if report.cameraId == cameraId then
          some report.status
        else
          stored) := by
  simp only [lastReported, List.reverse_cons, List.find?_append,
    List.find?_singleton]
  cases before.reverse.find? (·.cameraId == cameraId) with
  | some last => rfl
  | none =>
      split
      · rfl
      · rfl

/- What the route knows after some reports. -/
theorem find?_foldl_setPrevious
    (known : List Known)
    (before : List CameraStatusReport)
    (cameraId : String) :
    (before.foldl setPrevious known).find?
        (·.cameraId == cameraId) =
      (known.find? (·.cameraId == cameraId)).map
        (fun camera =>
          { camera with
            status :=
              lastReported before cameraId camera.status }) := by
  induction before generalizing known with
  | nil =>
      rw [List.foldl_nil]
      cases known.find? (·.cameraId == cameraId) with
      | none => rfl
      | some camera => rfl
  | cons report before ih =>
      rw [List.foldl_cons, ih, find?_setPrevious,
        Option.map_map]
      congr 1
      funext camera
      simp only [Function.comp, lastReported_cons]
      split <;> rfl

/- Entry by entry, with the reports before each. -/
theorem announcements_eq_map_iff :
    announcements known reports =
        reports.map (announces fixed) ↔
      ∀ before report after,
        reports = before ++ report :: after →
          announces (before.foldl setPrevious known) report =
            announces fixed report := by
  induction reports generalizing known with
  | nil => simp [announcements]
  | cons first rest ih =>
      rw [announcements, List.map_cons, List.cons.injEq, ih]
      constructor
      · rintro ⟨hFirst, hRest⟩ before report after hSplit
        cases before with
        | nil =>
            cases hSplit
            exact hFirst
        | cons earlier before =>
            rw [List.cons_append, List.cons.injEq] at hSplit
            rcases hSplit with ⟨rfl, hSplit⟩
            exact hRest before report after hSplit
      · intro hAll
        refine ⟨hAll [] first rest rfl, ?_⟩
        intro before report after hSplit
        exact
          hAll (first :: before) report after
            (congrArg (List.cons first) hSplit)

/- A report announces the same if the transition is. -/
theorem announces_foldl_iff
    (before : List CameraStatusReport)
    (report : CameraStatusReport) :
    announces (before.foldl setPrevious known) report =
        announces known report ↔
      ∀ camera,
        known.find? (·.cameraId == report.cameraId) =
            some camera →
          cameraTransition
              (lastReported before report.cameraId
                camera.status)
              report.status =
            cameraTransition camera.status report.status := by
  simp only [announces, find?_foldl_setPrevious]
  cases known.find? (·.cameraId == report.cameraId) with
  | none => simp
  | some camera =>
      simp only [Option.map_some, Option.bind_some,
        Option.some.injEq, forall_eq']
      refine (Option.map_injective ?_).eq_iff
      intro first second hSame
      exact (CameraTransition.mk.inj hSame).2.2

--------------------
-- Equal Announcements
--------------------

/- The same cameras, whatever their statuses. -/
def SameCameras (known fixed : List Known) : Prop :=
  ∀ cameraId,
    (known.find? (·.cameraId == cameraId)).map Known.name =
      (fixed.find? (·.cameraId == cameraId)).map Known.name

theorem sameCameras_setPrevious
    (hSame : SameCameras known fixed)
    (report : CameraStatusReport) :
    SameCameras (setPrevious known report) fixed := by
  intro cameraId
  rw [find?_setPrevious, Option.map_map, ← hSame cameraId]
  congr 1
  funext camera
  dsimp only [Function.comp]
  split <;> rfl

/-
  The one direction that a camera's stored status leaves for
  the handler to announce.
-/
def FromStored
    (fixed : List Known)
    (transition : CameraTransition) : Prop :=
  ∀ camera,
    fixed.find? (·.cameraId == transition.cameraId) =
        some camera →
      (transition.direction = .offline ↔
        camera.status ≠ some "offline")

theorem cameraTransition_eq_offline_iff
    {previous : Option String}
    {new : String} :
    cameraTransition previous new = some .offline ↔
      new = "offline" ∧ previous ≠ some "offline" := by
  unfold cameraTransition
  split
  · rename_i hOffline
    simp [hOffline]
  · rename_i hNot
    split
    · simp [hNot]
    · simp [hNot]

theorem cameraTransition_eq_online_iff
    {previous : Option String}
    {new : String} :
    cameraTransition previous new = some .online ↔
      isLive new = true ∧ previous = some "offline" := by
  unfold cameraTransition
  split
  · rename_i hOffline
    simp [hOffline.2]
  · split
    · rename_i hOnline
      simp [hOnline]
    · rename_i hNot
      simp [hNot]

/- What a report announces, taken apart. -/
theorem announces_eq_some_iff
    {report : CameraStatusReport}
    {transition : CameraTransition} :
    announces known report = some transition ↔
      ∃ camera,
        known.find? (·.cameraId == report.cameraId) =
            some camera ∧
          cameraTransition camera.status report.status =
            some transition.direction ∧
          transition.cameraId = report.cameraId ∧
          transition.displayName =
            displayName camera.name report.cameraId := by
  rw [announces, Option.bind_eq_some_iff]
  refine exists_congr fun camera => ?_
  refine and_congr_right fun _ => ?_
  rw [Option.map_eq_some_iff]
  constructor
  · rintro ⟨direction, hDirection, rfl⟩
    exact ⟨hDirection, rfl, rfl⟩
  · rintro ⟨hDirection, hId, hName⟩
    rcases transition with ⟨cameraId, shown, direction⟩
    simp only at hDirection hId hName
    exact ⟨direction, hDirection, by rw [hId, hName]⟩

theorem fromStored_announces
    {report : CameraStatusReport}
    {transition : CameraTransition}
    (hAnnounces :
      announces fixed report = some transition) :
    FromStored fixed transition := by
  rcases announces_eq_some_iff.mp hAnnounces with
    ⟨camera, hFound, hDirection, hId, -⟩
  intro other hOther
  rw [hId, hFound] at hOther
  cases hOther
  cases hWay : transition.direction with
  | offline =>
      rw [hWay] at hDirection
      simp [(cameraTransition_eq_offline_iff.mp hDirection).2]
  | online =>
      rw [hWay] at hDirection
      simp [(cameraTransition_eq_online_iff.mp hDirection).2]

/-
  What the route announces in the direction that the stored
  status leaves, the handler announces too.
-/
theorem announces_of_fromStored
    (hSame : SameCameras known fixed)
    {report : CameraStatusReport}
    {transition : CameraTransition}
    (hAnnounces :
      announces known report = some transition)
    (hStored : FromStored fixed transition) :
    announces fixed report = some transition := by
  rcases announces_eq_some_iff.mp hAnnounces with
    ⟨camera, hFound, hDirection, hId, hShown⟩
  have hNames := hSame report.cameraId
  rw [hFound, Option.map_some] at hNames
  rcases Option.map_eq_some_iff.mp hNames.symm with
    ⟨stored, hStoredFound, hName⟩
  have hWay := hStored stored (hId ▸ hStoredFound)
  refine
    announces_eq_some_iff.mpr
      ⟨stored, hStoredFound, ?_, hId, hName ▸ hShown⟩
  cases hDir : transition.direction with
  | offline =>
      rw [hDir] at hDirection hWay
      exact
        cameraTransition_eq_offline_iff.mpr
          ⟨(cameraTransition_eq_offline_iff.mp hDirection).1,
            hWay.mp rfl⟩
  | online =>
      rw [hDir] at hDirection hWay
      have hOffline : stored.status = some "offline" := by
        by_contra hNot
        cases hWay.mpr hNot
      exact
        cameraTransition_eq_online_iff.mpr
          ⟨(cameraTransition_eq_online_iff.mp hDirection).1,
            hOffline⟩

/- Entry by entry the route announces no more. -/
theorem announcements_within
    (hSame : SameCameras known fixed)
    (reports : List CameraStatusReport)
    (hStored :
      ∀ transition ∈
          (announcements known reports).reduceOption,
        FromStored fixed transition) :
    List.Forall₂ (fun a b => a = none ∨ a = b)
      (announcements known reports)
      (reports.map (announces fixed)) := by
  induction reports generalizing known with
  | nil => exact .nil
  | cons report rest ih =>
      rw [announcements, reduceOption_cons] at hStored
      refine .cons ?_ (ih (sameCameras_setPrevious hSame report) ?_)
      · cases hOne : announces known report with
        | none => exact Or.inl rfl
        | some transition =>
            refine Or.inr ?_
            rw [hOne] at hStored
            have hIn :=
              hStored transition
                (List.mem_append_left _
                  (List.mem_singleton.mpr rfl))
            exact
              (announces_of_fromStored hSame hOne hIn).symm
      · intro transition hIn
        exact
          hStored transition (List.mem_append_right _ hIn)

/-
  The two announce the same only if every report does: the
  handler never announces both directions of a camera.
-/
theorem announcements_eq_of_reduceOption_eq
    {reports : List CameraStatusReport}
    (hEqual :
      (announcements known reports).reduceOption =
        (reports.map (announces known)).reduceOption) :
    announcements known reports =
      reports.map (announces known) := by
  apply eq_of_reduceOption_eq _ hEqual
  apply announcements_within (fun _ => rfl)
  intro transition hIn
  rw [hEqual, List.reduceOption_mem_iff] at hIn
  rcases List.mem_map.mp hIn with ⟨report, -, hAnnounces⟩
  exact fromStored_announces hAnnounces

--------------------
-- Rows Without a Status
--------------------

/- One row under the writes of the reports. -/
def writtenRow
    (node now : Int)
    (isKnown : String → Bool)
    (reports : List CameraStatusReport)
    (row : CameraRow) : CameraRow :=
  reports.foldl
    (fun row report =>
      if isKnown report.cameraId &&
          isOwnCamera node report.cameraId row then
        { row with
          status := some report.status
          lastSeen := some now
          lastError :=
            if keepsError report.status then
              report.lastError
            else
              none }
      else
        row)
    row

/- The known camera of a reported id is the node's row. -/
theorem find?_knownCameras
    (rows : List CameraRow)
    {ids : List String}
    {cameraId : String}
    (hIn : cameraId ∈ ids) :
    (knownCameras rows node ids).find?
        (·.cameraId == cameraId) =
      (ownCamera rows node cameraId).map
        (fun row =>
          { cameraId := row.cameraId
            status := row.status
            name := row.name }) := by
  rw [knownCameras, List.find?_map, List.find?_filter,
    ownCamera]
  congr 2
  funext row
  rw [Bool.eq_iff_iff]
  by_cases hId : row.cameraId = cameraId
  · simp [isOwnCamera, hId, hIn]
  · simp [isOwnCamera, hId]

--------------------
-- Agreement
--------------------

variable {rows : List CameraRow}

/- No reported camera of the node has a NULL status. -/
def StatusesSet
    (rows : List CameraRow)
    (node : Int)
    (reports : List CameraStatusReport) : Prop :=
  ∀ row ∈ rows, row.nodeId = some node →
    (∃ report ∈ reports, report.cameraId = row.cameraId) →
      row.status ≠ none

/-
  No report announces something else compared with the last
  report of its camera than compared with the stored status.
-/
def RepeatsAnnounceAlike
    (rows : List CameraRow)
    (node : Int)
    (reports : List CameraStatusReport) : Prop :=
  ∀ before report after,
    reports = before ++ report :: after →
      ∀ row, ownCamera rows node report.cameraId = some row →
        cameraTransition
            (lastReported before report.cameraId row.status)
            report.status =
          cameraTransition row.status report.status

theorem nodeHeartbeat_eq_httpLoop :
    nodeHeartbeat rows node now reports =
      httpLoop node now
        (knownCameras rows node
          (reports.map CameraStatusReport.cameraId))
        rows reports := by
  unfold nodeHeartbeat
  cases reports with
  | nil => rfl
  | cons report rest => rfl

theorem entry_ids :
    (reports.map CameraStatusReport.entry).filterMap
        WsCamera.cameraId =
      reports.map CameraStatusReport.cameraId := by
  rw [List.filterMap_map]
  exact
    congrFun
      (List.filterMap_eq_map (f := CameraStatusReport.cameraId))
      reports

theorem statusesSet_iff :
    StatusesSet rows node reports ↔
      decodeKnown
          (knownCameras rows node
            (reports.map CameraStatusReport.cameraId)) ≠
        none := by
  rw [ne_eq, decodeKnown_eq_none_iff, not_exists]
  simp only [not_and, knownCameras, List.mem_map,
    List.mem_filter, Bool.and_eq_true, List.contains_iff_mem,
    beq_iff_eq]
  constructor
  · rintro hSet camera ⟨row, ⟨hRow, hIn, hNode⟩, rfl⟩
    exact hSet row hRow hNode hIn
  · intro hAll row hRow hNode hIn
    exact hAll _ ⟨row, ⟨hRow, hIn, hNode⟩, rfl⟩

/- The announcements alone. -/
theorem announcements_agree_iff :
    (announcements
          (knownCameras rows node
            (reports.map CameraStatusReport.cameraId))
          reports).reduceOption =
        (reports.map
          (announces
            (knownCameras rows node
              (reports.map
                CameraStatusReport.cameraId)))).reduceOption ↔
      RepeatsAnnounceAlike rows node reports := by
  have hSplit :
      announcements
            (knownCameras rows node
              (reports.map CameraStatusReport.cameraId))
            reports =
          reports.map
            (announces
              (knownCameras rows node
                (reports.map CameraStatusReport.cameraId))) ↔
        RepeatsAnnounceAlike rows node reports := by
    rw [announcements_eq_map_iff]
    refine forall₄_congr fun before report after hSplit => ?_
    have hIn :
        report.cameraId ∈
          reports.map CameraStatusReport.cameraId := by
      rw [hSplit]
      simp
    rw [announces_foldl_iff, find?_knownCameras rows hIn]
    constructor
    · intro hAll row hRow
      exact hAll _ (by rw [hRow]; rfl)
    · intro hAll camera hCamera
      rcases Option.map_eq_some_iff.mp hCamera with
        ⟨row, hRow, rfl⟩
      exact hAll row hRow
  constructor
  · intro hEqual
    exact
      hSplit.mp (announcements_eq_of_reduceOption_eq hEqual)
  · intro hAlike
    rw [hSplit.mpr hAlike]

/- Without a NULL status the rows agree. -/
theorem heartbeats_agree_of_set
    (hSet : StatusesSet rows node reports) :
    handleHeartbeat rows node now
          (reports.map CameraStatusReport.entry) =
        nodeHeartbeat rows node now reports ↔
      RepeatsAnnounceAlike rows node reports := by
  cases hDecoded :
      decodeKnown
        (knownCameras rows node
          (reports.map CameraStatusReport.cameraId)) with
  | none => exact absurd hDecoded (statusesSet_iff.mp hSet)
  | some decoded =>
      have hKnown := known_of_decodeKnown hDecoded
      rw [handleHeartbeat, entry_ids, hDecoded,
        nodeHeartbeat_eq_httpLoop, Prod.ext_iff, wsLoop_rows,
        httpLoop_rows, wsLoop_transitions,
        httpLoop_transitions, ← hKnown]
      simp only [true_and]
      rw [eq_comm]
      exact announcements_agree_iff

/- A streaming camera that goes offline twice in one list. -/
def porch : CameraRow where
  cameraId := "cam"
  nodeId := some 1
  name := "Porch"
  status := some "streaming"
  lastSeen := some 0
  lastError := none

end Heartbeat

end SentinelCommand
