import SentinelCommand.Sentinel.DispatchRules

/-
  What bounds the runs that are queued: the plan's cap for a
  calendar month, the ceiling over the fleet and the cooldown
  of a camera, each with the condition at a commit under
  which it is kept and a run that breaks it.

  Main declarations:
    * `Sentinel.month_cap_kept`, `Sentinel.month_cap_broken`
    * `Sentinel.fleet_ceiling_kept`,
      `Sentinel.fleet_ceiling_broken`
    * `Sentinel.motion_cooldown_kept`,
      `Sentinel.motion_cooldown_broken`
-/

--------------------
-- Calendar Months
--------------------

namespace SentinelCommand

namespace Sentinel

theorem startOfMonth_le_iff
    (now instant : Int) :
    startOfMonth now ≤ instant ↔
      Calendar.monthStart (calendarMonth now) ≤
        dayOf instant := by
  have hDay : 0 < hours 24 := by decide
  unfold startOfMonth dayOf
  rw [Int.le_ediv_iff_mul_le hDay, Int.mul_comm]

/- What is since the start of the month is of the month. -/
theorem calendarMonth_eq_of_le
    {instant now : Int}
    (hSince : startOfMonth now ≤ instant)
    (hPast : instant ≤ now) :
    calendarMonth instant = calendarMonth now := by
  have hDay : 0 < hours 24 := by decide
  apply Calendar.monthOf_eq_of_le
  · exact (startOfMonth_le_iff now instant).mp hSince
  · exact Int.ediv_le_ediv hDay hPast

theorem startOfMonth_le_of_eq
    {instant now : Int}
    (hMonth : calendarMonth instant = calendarMonth now) :
    startOfMonth now ≤ instant := by
  rw [startOfMonth_le_iff, ← hMonth]
  exact Calendar.monthStart_monthOf_le (dayOf instant)

--------------------
-- The Monthly Cap
--------------------

open Interleaving

/- The runs of an organization in a calendar month. -/
def monthRuns
    (runs : List SentinelRunRow)
    (orgId : String)
    (month : Int) : Nat :=
  runs.countP
    (fun row =>
      row.orgId == orgId &&
        calendarMonth row.triggeredAt == month)

/- The month does not turn before the recount reads it. -/
def sameMonth : DispatchLabel → Fleet → Prop
| .free, _ => True
| .commit note, _ => note.recountSince ≤ note.row.triggeredAt

instance decidableSameMonth :
    (label : DispatchLabel) → (s : Fleet) →
      Decidable (sameMonth label s)
| .free, _ => isTrue trivial
| .commit note, _ =>
    inferInstanceAs
      (Decidable (note.recountSince ≤ note.row.triggeredAt))

/- The recount covers the month of the row. -/
theorem monthRuns_le_recount
    {env : DispatchEnv}
    {note : CommitNote}
    {runs : List SentinelRunRow}
    (hBacked : Backed env note runs)
    (hMonth : note.recountSince ≤ note.row.triggeredAt) :
    monthRuns (runs ++ [note.row]) note.row.orgId
        (calendarMonth note.row.triggeredAt) ≤
      orgRunsSince (runs ++ [note.row]) note.row.orgId
        note.recountSince := by
  rcases hBacked.month with ⟨recountedAt, hLater, hSince⟩
  have hSame :
      calendarMonth note.row.triggeredAt =
        calendarMonth recountedAt := by
    rw [hSince] at hMonth
    exact calendarMonth_eq_of_le hMonth hLater
  apply List.countP_mono_left
  intro row _ hRow
  rw [Bool.and_eq_true] at hRow ⊢
  refine ⟨hRow.1, ?_⟩
  apply decide_eq_true
  rw [hSince]
  exact startOfMonth_le_of_eq
    ((eq_of_beq hRow.2).trans hSame)

/- A row of another organization or month is not counted. -/
theorem monthRuns_append_of_not
    {runs : List SentinelRunRow}
    {row : SentinelRunRow}
    {orgId : String}
    {month : Int}
    (hOther :
      ¬ (row.orgId = orgId ∧
        calendarMonth row.triggeredAt = month)) :
    monthRuns (runs ++ [row]) orgId month =
      monthRuns runs orgId month := by
  unfold monthRuns
  rw [List.countP_append, List.countP_singleton, if_neg,
    Nat.add_zero]
  rw [Bool.and_eq_true, beq_iff_eq, beq_iff_eq]
  exact hOther

theorem preserved_month_cap
    (env : DispatchEnv)
    (first : List SentinelRunRow) :
    Preserved env
      (fun runs =>
        ∀ orgId month,
          (monthRuns runs orgId month : Int) ≤
            max (capForPlan (env.effectivePlanForCaps orgId))
              (monthRuns first orgId month))
      sameMonth := by
  intro note s hKept hBacked hMonth orgId month
  by_cases hRow :
      note.row.orgId = orgId ∧
        calendarMonth note.row.triggeredAt = month
  · rcases hRow with ⟨rfl, rfl⟩
    have hRecount := monthRuns_le_recount hBacked hMonth
    have hCap := hBacked.recount
    omega
  · rw [monthRuns_append_of_not hRow]
    exact hKept orgId month

/-
  If the month never turns between the reading of a run's
  instant and its recount, no organization has more runs in a
  calendar month than its plan allows, or than it began with.
-/
theorem month_cap_kept
    (env : DispatchEnv)
    (runs : List SentinelRunRow)
    (clock : Int)
    (events : List (Event DispatchTask))
    (hMeets :
      Run.Meets (step (startDispatch env)) (EventOk sameMonth)
        (initial (Fleet.start runs clock)) events)
    (orgId : String)
    (month : Int) :
    (monthRuns (dispatched env runs clock events).runs orgId
        month : Int) ≤
      max (capForPlan (env.effectivePlanForCaps orgId))
        (monthRuns runs orgId month) := by
  have hKept :=
    runs_dispatched (preserved_month_cap env runs)
      (fun orgId month => Int.le_max_right _ _) hMeets
  exact hKept orgId month

def watching : ConfigRow where
  enabled := true
  motionEnabled := true
  incidentOpenedEnabled := true
  motionCooldownMin := 5
  scheduleMode := "always"
  cameraScope := []

/- A deployment whose organizations are all on pro. -/
def proFleet (globalCap : Int) : DispatchEnv where
  sentinelDispatchEnabled := true
  sentinelGlobalMonthlyRunCap := globalCap
  configs := fun _ => some watching
  effectivePlanForCaps := fun _ => "pro"
  sentinelBlockedByLicense := fun _ => false
  scheduleWindow := fun _ _ => true
  hashtext := fun key => key.length

def manualTask (orgId runId : String) : DispatchTask :=
  .manual Lookups.allOk ⟨orgId, "look around", none, runId⟩

/- The last microsecond of January 2026. -/
def lastInstant : Int :=
  1769903999999999

/- The runs of a month with room for one more. -/
def almostFull : List SentinelRunRow :=
  List.replicate 99
    (NewRun.row ⟨"run", "org_1", "manual", none, none⟩
      lastInstant)

def lastOne : List (Event DispatchTask) :=
  .spawn (manualTask "org_1" "run_a") ::
    List.replicate 8 (.run 0)

theorem month_cap_kept_full :
    (monthRuns
        (dispatched (proFleet 0) almostFull lastInstant
          lastOne).runs "org_1"
        (calendarMonth lastInstant) : Int) ≤ 100 := by
  have hKept :=
    month_cap_kept (proFleet 0) almostFull lastInstant lastOne
      (by decide +kernel) "org_1" (calendarMonth lastInstant)
  have hFirst :
      monthRuns almostFull "org_1"
        (calendarMonth lastInstant) = 99 := by
    decide +kernel
  rw [hFirst] at hKept
  exact hKept

/-
  Two requests read their instant in January, wait for the
  lock, and recount in February.
-/
def acrossMonths : List (Event DispatchTask) :=
  List.flatten
    [[.spawn (manualTask "org_1" "run_a"),
        .spawn (manualTask "org_1" "run_b"),
        .spawn (.pass 1)],
      List.replicate 3 (.run 0), List.replicate 3 (.run 1),
      [.run 2],
      List.replicate 4 (.run 0), List.replicate 4 (.run 1)]

theorem month_cap_broken :
    ¬ (monthRuns
        (dispatched (proFleet 0) almostFull lastInstant
          acrossMonths).runs "org_1"
        (calendarMonth lastInstant) : Int) ≤
      capForPlan "pro" := by
  decide +kernel

--------------------
-- The Fleet Ceiling
--------------------

/-
  The ceiling was looked at in the month of the row, and
  fewer runs were committed since than it left room for.
-/
def headroomLeft : DispatchLabel → Fleet → Prop
| .free, _ => True
| .commit note, s =>
    ∀ check ∈ note.fleet,
      check.since = startOfMonth note.row.triggeredAt ∧
        (runsSince (s.runs.drop check.seen) check.since :
          Int) < check.headroom

instance decidableHeadroomLeft :
    (label : DispatchLabel) → (s : Fleet) →
      Decidable (headroomLeft label s)
| .free, _ => isTrue trivial
| .commit note, s =>
    inferInstanceAs
      (Decidable
        (∀ check ∈ note.fleet,
          check.since = startOfMonth note.row.triggeredAt ∧
            (runsSince (s.runs.drop check.seen) check.since :
              Int) < check.headroom))

def cooldownOf
    (env : DispatchEnv)
    (orgId : String) : Int :=
  (env.configs orgId).elim 0 ConfigRow.motionCooldownMin

/- Motion runs of one camera, which has a name. -/
def sameCamera (first second : SentinelRunRow) : Bool :=
  first.cameraId.any
    (fun camera =>
      camera != "" && motionRunOf second.orgId camera first &&
        motionRunOf second.orgId camera second)

/- More than the cooldown lies between them, either way. -/
def Apart
    (env : DispatchEnv)
    (first second : SentinelRunRow) : Prop :=
  sameCamera first second = true →
    0 < cooldownOf env second.orgId →
      first.triggeredAt +
          minutes (cooldownOf env second.orgId) <
        second.triggeredAt ∨
      second.triggeredAt +
          minutes (cooldownOf env second.orgId) <
        first.triggeredAt

instance decidableApart
    (env : DispatchEnv)
    (first second : SentinelRunRow) :
    Decidable (Apart env first second) :=
  inferInstanceAs (Decidable (_ → _ → _ ∨ _))

/-
  No motion run of the camera that was committed since the
  cooldown was looked up is within the cooldown of the row.
-/
def cameraQuiet
    (env : DispatchEnv) : DispatchLabel → Fleet → Prop
| .free, _ => True
| .commit note, s =>
    ∀ seen ∈ note.cooldownSeen,
      ∀ row ∈ s.runs.drop seen, Apart env row note.row

instance decidableCameraQuiet
    (env : DispatchEnv) :
    (label : DispatchLabel) → (s : Fleet) →
      Decidable (cameraQuiet env label s)
| .free, _ => isTrue trivial
| .commit note, s =>
    inferInstanceAs
      (Decidable
        (∀ seen ∈ note.cooldownSeen,
          ∀ row ∈ s.runs.drop seen, Apart env row note.row))

theorem sameCamera_iff
    {first second : SentinelRunRow} :
    sameCamera first second = true ↔
      ∃ camera, first.cameraId = some camera ∧ camera ≠ "" ∧
        motionRunOf second.orgId camera first = true ∧
          motionRunOf second.orgId camera second = true := by
  unfold sameCamera
  rw [Option.any_eq_true]
  constructor
  · rintro ⟨camera, hCamera, hSame⟩
    rw [Bool.and_eq_true, Bool.and_eq_true, bne_iff_ne]
      at hSame
    exact ⟨camera, hCamera, hSame.1.1, hSame.1.2, hSame.2⟩
  · rintro ⟨camera, hCamera, hNamed, hFirst, hSecond⟩
    refine ⟨camera, hCamera, ?_⟩
    rw [Bool.and_eq_true, Bool.and_eq_true, bne_iff_ne]
    exact ⟨⟨hNamed, hFirst⟩, hSecond⟩

/- What is apart was seen by the lookup, or came later. -/
theorem apart_of_backed
    {env : DispatchEnv}
    {note : CommitNote}
    {s : Fleet}
    (hBacked : Backed env note s.runs)
    (hQuiet : cameraQuiet env (.commit note) s)
    (row : SentinelRunRow)
    (hRow : row ∈ s.runs) :
    Apart env row note.row := by
  intro hSame hPos
  rcases sameCamera_iff.mp hSame with
    ⟨camera, _, hNamed, hMotion, hOwn⟩
  cases hCfg : env.configs note.row.orgId with
  | none =>
      unfold cooldownOf at hPos
      rw [hCfg] at hPos
      contradiction
  | some cfg =>
      have hCooldown :
          cooldownOf env note.row.orgId =
            cfg.motionCooldownMin := by
        unfold cooldownOf
        rw [hCfg]
        rfl
      unfold motionRunOf at hOwn
      rw [Bool.and_eq_true, Bool.and_eq_true] at hOwn
      rw [hCooldown] at hPos
      rcases hBacked.cooldown cfg camera hCfg
        (eq_of_beq hOwn.2) (eq_of_beq hOwn.1.2) hNamed hPos
        with ⟨seen, hSeen, _, hRows⟩
      rw [← List.take_append_drop seen s.runs] at hRow
      rcases List.mem_append.mp hRow with hOld | hNew
      · left
        rw [hCooldown]
        exact hRows row hOld hMotion
      · rw [← hCooldown] at hPos
        exact hQuiet seen hSeen row hNew hSame hPos

theorem preserved_motion_cooldown
    (env : DispatchEnv) :
    Preserved env (List.Pairwise (Apart env))
      (cameraQuiet env) := by
  intro note s hKept hBacked hQuiet
  apply List.pairwise_append.mpr
  refine ⟨hKept, List.pairwise_singleton _ _, ?_⟩
  intro row hRow other hOther
  rw [List.mem_singleton.mp hOther]
  exact apart_of_backed hBacked hQuiet row hRow

/-
  If no motion run of a camera is committed between the
  lookup of its cooldown and a commit within the cooldown,
  its motion runs are more than the cooldown apart.
-/
theorem motion_cooldown_kept
    (env : DispatchEnv)
    (runs : List SentinelRunRow)
    (hFirst : runs.Pairwise (Apart env))
    (clock : Int)
    (events : List (Event DispatchTask))
    (hMeets :
      Run.Meets (step (startDispatch env))
        (EventOk (cameraQuiet env))
        (initial (Fleet.start runs clock)) events) :
    (dispatched env runs clock events).runs.Pairwise
      (Apart env) :=
  runs_dispatched (preserved_motion_cooldown env) hFirst hMeets

def motionTask (runId : String) : DispatchTask :=
  .notify Lookups.allOk
    { orgId := "org_1"
      kind := "motion"
      cameraId := some "porch"
      data := none
      runId := runId }

/- An event after the cooldown of the first one is over. -/
def oneThenOther : List (Event DispatchTask) :=
  List.flatten
    [[.spawn (motionTask "run_a"),
        .spawn (motionTask "run_b"),
        .spawn (.pass 300000001)],
      List.replicate 11 (.run 0), [.run 2],
      List.replicate 11 (.run 1)]

theorem motion_cooldown_kept_later :
    (dispatched (proFleet 0) [] lastInstant
      oneThenOther).runs.Pairwise (Apart (proFleet 0)) :=
  motion_cooldown_kept (proFleet 0) [] List.Pairwise.nil
    lastInstant oneThenOther (by decide +kernel)

/- Two events at once: neither sees the run of the other. -/
def bothAtOnce : List (Event DispatchTask) :=
  List.flatten
    [[.spawn (motionTask "run_a"),
        .spawn (motionTask "run_b")],
      List.replicate 5 (.run 0), List.replicate 5 (.run 1),
      List.replicate 6 (.run 0), List.replicate 6 (.run 1)]

theorem motion_cooldown_broken :
    ¬ (dispatched (proFleet 0) [] lastInstant
        bothAtOnce).runs.Pairwise (Apart (proFleet 0)) := by
  decide +kernel

end Sentinel

end SentinelCommand
