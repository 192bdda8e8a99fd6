import SentinelCommand.Json
import SentinelCommand.Lib.Calls

/-
  The two recording modes of a camera, written by the REST
  routes, the integration route and the MCP tool, statement
  by statement.

  The settings route judges the row its UPDATE leaves, since
  it writes both modes. The other three write a mode on
  beside one they have not looked at, or looked at before.

  Main declarations:
    * `Recording.RecordingCall`, `Recording.recordingProgram`
    * `Recording.modes_exclude_iff`
    * `Recording.switch_joins_schedule`
-/

--------------------
-- Requests
--------------------

namespace SentinelCommand

namespace Recording

/- The recording columns of a row of `cameras`. -/
structure Policy where
  continuous : Bool
  scheduled : Bool
  start : Option String
  stop : Option String
  deriving DecidableEq, Repr

/- The fields a settings request or a tool call sets. -/
structure PolicyPatch where
  continuous : Option Bool
  scheduled : Option Bool
  start : Option String
  stop : Option String
  deriving DecidableEq, Repr

/-
  The four writers: the toggle, the integration switch, the
  settings route and the tool. The first two look at the
  `recording` field of their body.
-/
inductive RecordingRequest where
  | toggleRecording (field : Option Json)
  | setRecording (field : Option Json)
  | updateRecordingPolicy (patch : PolicyPatch)
  | setCameraRecordingPolicy (patch : PolicyPatch)

/- A field's truth as Python sees it; none is false. -/
def truthy (field : Option Json) : Bool :=
  (field.map Json.truthy).getD false

inductive Refusal where
  | badTime (label value : String)
  | bothModes
  | emptyWindow
  deriving DecidableEq, Repr

/- The columns an UPDATE sets. -/
structure Update where
  continuous : Option Bool
  scheduled : Option Bool
  start : Option (Option String)
  stop : Option (Option String)
  deriving DecidableEq, Repr

def Update.apply (row : Policy) (update : Update) : Policy where
  continuous := update.continuous.getD row.continuous
  scheduled := update.scheduled.getD row.scheduled
  start := update.start.getD row.start
  stop := update.stop.getD row.stop

/- The UPDATE of a switch. -/
def switch (recording : Bool) : Update where
  continuous := some recording
  scheduled := none
  start := none
  stop := none

def emptyToNull (value : String) : Option String :=
  if value = "" then none else some value

def isHhmm (value : String) : Bool :=
  match value.toList with
  | [a, b, colon, c, d] =>
      colon == ':' && (a == '0' || a == '1' || a == '2') &&
        b.isDigit && !(a == '2' && '3' < b) &&
        ('0' ≤ c && c ≤ '5') && d.isDigit
  | _ => false

def badTime (label : String) : Option String → Option Refusal
| none => none
| some value =>
    if value ≠ "" ∧ isHhmm value = false then
      some (.badTime label value)
    else
      none

/- A patched time, an empty one clearing it. -/
def nextTime
    (asked stored : Option String) : Option String :=
  match asked with
  | some value => emptyToNull value
  | none => stored

/- The row a patch asks for, given what was read. -/
def nextPolicy
    (patch : PolicyPatch)
    (current : Policy) : Policy where
  continuous := patch.continuous.getD current.continuous
  scheduled := patch.scheduled.getD current.scheduled
  start := nextTime patch.start current.start
  stop := nextTime patch.stop current.stop

/- Both modes, or a window without a minute, are refused. -/
def policyRefusal (next : Policy) : Option Refusal :=
  if next.continuous = true ∧ next.scheduled = true then
    some .bothModes
  else if next.scheduled = true ∧ next.start.isSome ∧
      next.start = next.stop then
    some .emptyWindow
  else
    none

--------------------
-- Calls
--------------------

/- The statement a call waits for. -/
inductive RecordingStage where
  | finding
  | reading
  | writing (update : Update)
  | finished
  | refused (refusal : Refusal)
  | failed
  deriving DecidableEq, Repr

structure RecordingCall where
  request : RecordingRequest
  stage : RecordingStage

def beginRecording
    (row : Policy)
    (request : RecordingRequest) :
    Policy × Option RecordingCall :=
  match request with
  | .setCameraRecordingPolicy _ =>
      (row, some { request := request, stage := .finding })
  | _ => (row, some { request := request, stage := .reading })

/- The tool found the camera and looks at the times. -/
def foundStage : RecordingRequest → RecordingStage
| .setCameraRecordingPolicy patch =>
    match badTime "scheduled_start" patch.start with
    | some refusal => .refused refusal
    | none =>
        match badTime "scheduled_end" patch.stop with
        | some refusal => .refused refusal
        | none => .reading
| _ => .reading

/- Only a changed value is written. -/
def switchStage
    (current : Policy)
    (recording : Bool) : RecordingStage :=
  if current.continuous ≠ recording then
    .writing (switch recording)
  else
    .finished

/- The call goes on with the row it read. -/
def readStage
    (current : Policy) : RecordingRequest → RecordingStage
| .toggleRecording field => switchStage current (truthy field)
| .setRecording field => switchStage current (truthy field)
| .updateRecordingPolicy patch =>
    let next := nextPolicy patch current
    match policyRefusal next with
    | some refusal => .refused refusal
    | none =>
        if next = current then
          .finished
        else
          -- All four columns, whatever the patch set.
          .writing
            { continuous := some next.continuous
              scheduled := some next.scheduled
              start := some next.start
              stop := some next.stop }
| .setCameraRecordingPolicy patch =>
    match policyRefusal (nextPolicy patch current) with
    | some refusal => .refused refusal
    | none =>
        if patch.continuous.isNone ∧ patch.scheduled.isNone ∧
            patch.start.isNone ∧ patch.stop.isNone then
          .finished
        else
          -- Only the columns the call set.
          .writing
            { continuous := patch.continuous
              scheduled := patch.scheduled
              start := patch.start.map emptyToNull
              stop := patch.stop.map emptyToNull }

/- A call goes on with its next statement, which may fail. -/
def resumeRecording
    (row : Policy)
    (call : RecordingCall)
    (fails : Bool) : Policy × RecordingCall :=
  match call.stage with
  | .finding =>
      if fails then
        (row, { call with stage := .failed })
      else
        (row, { call with stage := foundStage call.request })
  | .reading =>
      if fails then
        (row, { call with stage := .failed })
      else
        (row, { call with stage := readStage row call.request })
  | .writing update =>
      if fails then
        (row, { call with stage := .failed })
      else
        (update.apply row, { call with stage := .finished })
  | .finished => (row, call)
  | .refused _ => (row, call)
  | .failed => (row, call)

def recordingProgram :
    Calls.Program Policy RecordingCall RecordingRequest Bool
    where
  begin := beginRecording
  resume := resumeRecording

abbrev RecordingConfig : Type :=
  Calls.Config Policy RecordingCall

abbrev RecordingEvent : Type :=
  Calls.Event RecordingRequest Bool

def recordingStep :
    RecordingConfig → RecordingEvent → RecordingConfig :=
  Calls.step recordingProgram

/- At most one mode is on. -/
def Exclusive (row : Policy) : Prop :=
  ¬ (row.continuous = true ∧ row.scheduled = true)

instance (row : Policy) : Decidable (Exclusive row) :=
  inferInstanceAs
    (Decidable
      (¬ (row.continuous = true ∧ row.scheduled = true)))

/-
  The request sets one mode on and leaves the other alone,
  which is on in the row.
-/
def joins (row : Policy) : RecordingRequest → Bool
| .toggleRecording field => truthy field && row.scheduled
| .setRecording field => truthy field && row.scheduled
| .updateRecordingPolicy _ => false
| .setCameraRecordingPolicy patch =>
    (patch.continuous == some true &&
        patch.scheduled.isNone && row.scheduled) ||
      (patch.scheduled == some true &&
        patch.continuous.isNone && row.continuous)

/-
  The event is an UPDATE that sets a mode on beside the
  other.
-/
def Clashes (c : RecordingConfig) (e : RecordingEvent) : Prop :=
  match Calls.resumed c e with
  | some (⟨request, .writing _⟩, false) =>
      joins c.shared request = true
  | _ => False

--------------------
-- What Is Planned
--------------------

variable {c : RecordingConfig}
variable {row : Policy}

/- The UPDATE that a request may come to. -/
def Plans : RecordingRequest → Update → Prop
| .toggleRecording field, update =>
    update = switch (truthy field)
| .setRecording field, update =>
    update = switch (truthy field)
| .updateRecordingPolicy _, update =>
    ∃ next, policyRefusal next = none ∧
      update.continuous = some next.continuous ∧
      update.scheduled = some next.scheduled
| .setCameraRecordingPolicy patch, update =>
    update.continuous = patch.continuous ∧
      update.scheduled = patch.scheduled ∧
      ∃ current,
        policyRefusal (nextPolicy patch current) = none

def Planned (call : RecordingCall) : Prop :=
  ∀ update, call.stage = .writing update →
    Plans call.request update

theorem exclusive_of_policyRefusal
    {next : Policy}
    (hNext : policyRefusal next = none) :
    Exclusive next := by
  intro hBoth
  rw [policyRefusal, if_pos hBoth] at hNext
  cases hNext

theorem planned_switchStage
    {current : Policy}
    {recording : Bool}
    {update : Update}
    (hStage :
      switchStage current recording = .writing update) :
    update = switch recording := by
  unfold switchStage at hStage
  split at hStage
  · cases hStage
    rfl
  · cases hStage

/- A call plans its UPDATE from what it has just read. -/
theorem plans_readStage
    {current : Policy}
    {request : RecordingRequest}
    {update : Update}
    (hStage : readStage current request = .writing update) :
    Plans request update := by
  cases request with
  | toggleRecording field => exact planned_switchStage hStage
  | setRecording field => exact planned_switchStage hStage
  | updateRecordingPolicy patch =>
      simp only [readStage] at hStage
      split at hStage
      · cases hStage
      · rename_i hNext
        split at hStage
        · cases hStage
        · cases hStage
          exact ⟨_, hNext, rfl, rfl⟩
  | setCameraRecordingPolicy patch =>
      simp only [readStage] at hStage
      split at hStage
      · cases hStage
      · rename_i hNext
        split at hStage
        · cases hStage
        · cases hStage
          exact ⟨rfl, rfl, current, hNext⟩

/-
  An UPDATE leaves both modes on only if its request sets
  one on beside the other.
-/
theorem exclusive_apply_iff
    (hRow : Exclusive row)
    {request : RecordingRequest}
    {update : Update}
    (hPlans : Plans request update) :
    Exclusive (update.apply row) ↔
      joins row request = false := by
  rcases row with ⟨continuous, scheduled, start, stop⟩
  cases request with
  | toggleRecording field =>
      rw [show update = switch (truthy field) from hPlans]
      cases hAsked : truthy field <;> cases scheduled <;>
        simp [Exclusive, Update.apply, switch, joins, hAsked]
  | setRecording field =>
      rw [show update = switch (truthy field) from hPlans]
      cases hAsked : truthy field <;> cases scheduled <;>
        simp [Exclusive, Update.apply, switch, joins, hAsked]
  | updateRecordingPolicy patch =>
      rcases hPlans with
        ⟨next, hNext, hContinuous, hScheduled⟩
      have hOnly := exclusive_of_policyRefusal hNext
      refine ⟨fun _ => rfl, fun _ => ?_⟩
      simpa [Exclusive, Update.apply, hContinuous,
        hScheduled] using hOnly
  | setCameraRecordingPolicy patch =>
      rcases hPlans with
        ⟨hContinuous, hScheduled, current, hNext⟩
      have hOnly := exclusive_of_policyRefusal hNext
      rcases patch with ⟨asked, window, first, last⟩
      simp only [Exclusive, nextPolicy] at hOnly hRow
      simp only [Exclusive, Update.apply, hContinuous,
        hScheduled, joins]
      -- Each mode is left alone, turned off or turned on.
      rcases asked with _ | _ | _ <;>
        rcases window with _ | _ | _ <;> simp_all

--------------------
-- Every Interleaving
--------------------

def AllPlanned (c : RecordingConfig) : Prop :=
  ∀ call ∈ c.calls, Planned call

theorem planned_of_not_writing
    {call : RecordingCall}
    (hStage : ∀ update, call.stage ≠ .writing update) :
    Planned call :=
  fun update hWriting => absurd hWriting (hStage update)

theorem foundStage_ne_writing
    (request : RecordingRequest)
    (update : Update) :
    foundStage request ≠ .writing update := by
  cases request with
  | toggleRecording => exact nofun
  | setRecording => exact nofun
  | updateRecordingPolicy => exact nofun
  | setCameraRecordingPolicy patch =>
      unfold foundStage
      dsimp only
      split
      · exact nofun
      · split
        · exact nofun
        · exact nofun

theorem planned_resumeRecording
    (row : Policy)
    {call : RecordingCall}
    (hPlanned : Planned call)
    (fails : Bool) :
    Planned (resumeRecording row call fails).2 := by
  rcases call with ⟨request, stage⟩
  cases stage with
  | finding =>
      cases fails with
      | true => exact planned_of_not_writing (fun _ => nofun)
      | false =>
          exact
            planned_of_not_writing
              (foundStage_ne_writing request)
  | reading =>
      cases fails with
      | true => exact planned_of_not_writing (fun _ => nofun)
      | false => exact fun _ hStage => plans_readStage hStage
  | writing update =>
      cases fails with
      | true => exact planned_of_not_writing (fun _ => nofun)
      | false => exact planned_of_not_writing (fun _ => nofun)
  | finished => exact hPlanned
  | refused => exact hPlanned
  | failed => exact hPlanned

theorem beginRecording_cases
    (row : Policy)
    (request : RecordingRequest) :
    ∃ stage,
      beginRecording row request =
          (row, some { request := request, stage := stage }) ∧
        (stage = .finding ∨ stage = .reading) := by
  cases request with
  | toggleRecording => exact ⟨_, rfl, Or.inr rfl⟩
  | setRecording => exact ⟨_, rfl, Or.inr rfl⟩
  | updateRecordingPolicy => exact ⟨_, rfl, Or.inr rfl⟩
  | setCameraRecordingPolicy => exact ⟨_, rfl, Or.inl rfl⟩

theorem allPlanned_step
    (hPlanned : AllPlanned c)
    (e : RecordingEvent) :
    AllPlanned (recordingStep c e) := by
  cases e with
  | start request =>
      rcases beginRecording_cases c.shared request with
        ⟨stage, hBegin, hStage⟩
      simp only [AllPlanned, recordingStep, Calls.step,
        recordingProgram, hBegin, Option.toList_some]
      apply Calls.forall_started hPlanned
      apply planned_of_not_writing
      rcases hStage with rfl | rfl
      · simp
      · simp
  | resume id fails =>
      cases hCall : c.calls[id]? with
      | none =>
          simpa [recordingStep, Calls.step, hCall] using hPlanned
      | some call =>
          simp only [AllPlanned, recordingStep, Calls.step,
            hCall, recordingProgram]
          exact
            Calls.forall_resumed hPlanned
              (planned_resumeRecording c.shared
                (hPlanned call (List.mem_of_getElem? hCall))
                fails)

/- Nothing but an UPDATE touches the row. -/
theorem exclusive_step_iff
    (hPlanned : AllPlanned c)
    (hRow : Exclusive c.shared)
    (e : RecordingEvent) :
    Exclusive (recordingStep c e).shared ↔ ¬ Clashes c e := by
  cases e with
  | start request =>
      rcases beginRecording_cases c.shared request with
        ⟨stage, hBegin, -⟩
      simp only [recordingStep, Calls.step, recordingProgram,
        hBegin]
      exact ⟨fun _ => id, fun _ => hRow⟩
  | resume place fails =>
      cases hCall : c.calls[place]? with
      | none =>
          simpa [recordingStep, Calls.step, hCall, Clashes,
            Calls.resumed] using hRow
      | some call =>
          have hOwn :=
            hPlanned call (List.mem_of_getElem? hCall)
          rcases call with ⟨request, stage⟩
          simp only [recordingStep, Calls.step, hCall,
            recordingProgram, Clashes, Calls.resumed,
            Option.map_some]
          cases stage with
          | writing update =>
              cases fails with
              | true => exact ⟨fun _ => id, fun _ => hRow⟩
              | false =>
                  refine
                    (exclusive_apply_iff hRow
                      (hOwn update rfl)).trans ?_
                  exact Bool.not_eq_true _ ▸ Iff.rfl
          | finding =>
              cases fails <;>
                exact ⟨fun _ => id, fun _ => hRow⟩
          | reading =>
              cases fails <;>
                exact ⟨fun _ => id, fun _ => hRow⟩
          | finished => exact ⟨fun _ => id, fun _ => hRow⟩
          | refused => exact ⟨fun _ => id, fun _ => hRow⟩
          | failed => exact ⟨fun _ => id, fun _ => hRow⟩

/-
  From a row with at most one mode on, the modes exclude
  each other all along a run exactly when no UPDATE sets a
  mode on beside the other.
-/
theorem modes_exclude_iff
    (row : Policy)
    (hRow : Exclusive row)
    (events : List RecordingEvent) :
    (∀ past, past <+: events →
        Exclusive
          (Run.exec recordingStep (Calls.initial row)
            past).shared) ↔
      Run.Meets recordingStep (fun c e => ¬ Clashes c e)
        (Calls.initial row) events := by
  have hInv :
      ∀ c e, AllPlanned c → Exclusive c.shared →
        ¬ Clashes c e → AllPlanned (recordingStep c e) :=
    fun _ e hPlanned _ _ => allPlanned_step hPlanned e
  have hStep :
      ∀ c e, AllPlanned c → Exclusive c.shared →
        (Exclusive (recordingStep c e).shared ↔
          ¬ Clashes c e) :=
    fun _ e hPlanned hRow =>
      exclusive_step_iff hPlanned hRow e
  exact
    Run.kept_prefixes_iff_meets
      (fun c : RecordingConfig => Exclusive c.shared) hInv hStep
      events (fun _ hCall => absurd hCall List.not_mem_nil)
      hRow

/- A camera on a schedule. -/
def nightly : Policy where
  continuous := false
  scheduled := true
  start := some "18:00"
  stop := some "06:00"

/- The settings route turns one mode off and the other on. -/
def changeover : RecordingRequest :=
  .updateRecordingPolicy
    { continuous := some true
      scheduled := some false
      start := none
      stop := none }

theorem modes_exclude_changeover :
    Exclusive
      (Run.exec recordingStep (Calls.initial nightly)
        [.start changeover, .resume 0 false,
          .resume 0 false]).shared :=
  (modes_exclude_iff nightly (by decide)
      [.start changeover, .resume 0 false,
        .resume 0 false]).mpr
    ⟨not_false, not_false, Bool.false_ne_true, trivial⟩ _
    (List.prefix_refl _)

/- The record button turns continuous recording on. -/
theorem switch_joins_schedule :
    ¬ ∀ (row : Policy) (events : List RecordingEvent),
      Exclusive row →
        Exclusive
          (Run.exec recordingStep (Calls.initial row)
            events).shared := by
  intro hAll
  have hBoth :=
    hAll nightly
      [.start (.toggleRecording (some (.bool true))),
        .resume 0 false, .resume 0 false]
      (by decide)
  exact absurd hBoth (by decide)

end Recording

end SentinelCommand
