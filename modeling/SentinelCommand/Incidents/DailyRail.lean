import SentinelCommand.Lib.Calls
import SentinelCommand.Privacy.Tables

/-
  The daily cap on incidents, when calls of the MCP tool
  `create_incident` for one organization run side by side.

  A call counts the day's incidents, may look a camera up,
  and inserts. Nothing holds the others back in between: a
  call that has counted inserts whatever the others have
  inserted since.

  Main declarations:
    * `Incidents.CreateCall`, `Incidents.createProgram`
    * `Incidents.daily_rail_kept`
    * `Incidents.burst_overshoots`
-/

--------------------
-- Calls of the Tool
--------------------

namespace SentinelCommand

namespace Incidents

open Privacy

/- The tables and the clock. -/
structure Rail where
  db : Db
  now : Int
  deriving DecidableEq, Repr

/- The arguments of a call, an absent text being empty. -/
structure NewIncident where
  keyName : String
  title : String
  summary : String
  severityArg : Option String
  cameraIdArg : Option String
  deriving DecidableEq, Repr

def NewIncident.severity (new : NewIncident) : String :=
  new.severityArg.getD "medium"

/- `opt_camera_id`. -/
def NewIncident.cameraId
    (new : NewIncident) : Option String :=
  new.cameraIdArg.filter (· ≠ "")

/- What is refused before any statement. -/
def NewIncident.refusal
    (new : NewIncident) : Option String :=
  if new.severity ∉ severities then
    some (invalidChoice "severity" new.severity severities)
  else if trimText new.title = "" then
    some "title is required"
  else if trimText new.summary = "" then
    some "summary is required"
  else if new.summary.length > maxSummaryChars then
    some
      ("summary too long (" ++ toString new.summary.length ++
        " chars; max " ++ toString maxSummaryChars ++
        "). Put detail in the report via finalize_incident.")
  else
    none

def dbError : String :=
  "Internal error — the request could not be completed. " ++
    "Try again shortly."

/- `SELECT COUNT(*)` of an org's incidents from a time on. -/
def createdSince
    (db : Db)
    (orgId : String)
    (since : Int) : Nat :=
  (db.incidents.filter
    (fun row => row.orgId == orgId && since ≤ row.createdAt)
  ).length

/- How far a call has come, by the statement it waits for. -/
inductive CreateCall where
  | counting (new : NewIncident) (since : Int)
  | checking (new : NewIncident) (cameraId : String)
  | inserting (new : NewIncident) (now : Int)
  | created
  | refused (message : String)
  deriving DecidableEq, Repr

inductive CreateStart where
  | create (new : NewIncident)
  | clock (now : Int)
  deriving DecidableEq, Repr

/-
  How a statement comes back: `known` is whether the lookup
  in `cameras` found a row.
-/
structure Answer where
  fails : Bool
  known : Bool
  deriving DecidableEq, Repr

/- The checks before the first statement. -/
def beginCreate
    (rail : Rail) :
    CreateStart → Rail × Option CreateCall
| .create new =>
    match new.refusal with
    | some refusal => (rail, some (.refused refusal))
    | none =>
        (rail, some (.counting new (dayStart rail.now)))
| .clock now => ({ rail with now := now }, none)

/- A call goes on with its next statement. -/
def resumeCreate
    (orgId : String)
    (rail : Rail) :
    CreateCall → Answer → Rail × CreateCall
| .counting new since, answer =>
    if answer.fails then
      (rail, .refused dbError)
    else
      match dailyCapRefusal (createdSince rail.db orgId since)
          maxIncidentsPerOrgPerDay with
      | some refusal => (rail, .refused refusal)
      | none =>
          match new.cameraId with
          | some cameraId => (rail, .checking new cameraId)
          | none => (rail, .inserting new rail.now)
| .checking new cameraId, answer =>
    if answer.fails then
      (rail, .refused dbError)
    else if answer.known = false then
      (rail,
        .refused ("Camera '" ++ cameraId ++ "' not found"))
    else
      (rail, .inserting new rail.now)
| .inserting new now, answer =>
    if answer.fails then
      (rail, .refused dbError)
    else
      ({ rail with
          db :=
            insertIncident rail.db orgId new.cameraId
              (truncate (trimText new.title) 200)
              (trimText new.summary) new.severity
              (agentLabel new.keyName) now now },
        .created)
| call, _ => (rail, call)

def createProgram
    (orgId : String) :
    Calls.Program Rail CreateCall CreateStart Answer where
  begin := beginCreate
  resume := resumeCreate orgId

abbrev RailConfig : Type :=
  Calls.Config Rail CreateCall

abbrev RailEvent : Type :=
  Calls.Event CreateStart Answer

def railStep
    (orgId : String) :
    RailConfig → RailEvent → RailConfig :=
  Calls.step (createProgram orgId)

/- A call whose statements all run, one after another. -/
def alone
    (orgId : String)
    (rail : Rail)
    (new : NewIncident)
    (known : Bool) : Rail × CreateCall :=
  let answer : Answer := { fails := false, known := known }
  match beginCreate rail (.create new) with
  | (first, none) => (first, .created)
  | (first, some call) =>
      let second := resumeCreate orgId first call answer
      let third := resumeCreate orgId second.1 second.2 answer
      resumeCreate orgId third.1 third.2 answer

/- On its own a call is the tool as `Privacy` has it. -/
theorem alone_eq_toolCreateIncident
    (orgId : String)
    (rail : Rail)
    (new : NewIncident)
    (known : Bool) :
    alone orgId rail new known =
      match
        toolCreateIncident rail.db orgId new.keyName new.title
          new.summary new.severityArg new.cameraIdArg known
          rail.now with
      | .ok db => ({ rail with db := db }, .created)
      | .error refusal => (rail, .refused refusal) := by
  have hCount :
      createdSince rail.db orgId (dayStart rail.now) =
        createdToday rail.db orgId rail.now := rfl
  have hArg :
      new.cameraIdArg.filter (· ≠ "") = new.cameraId := rfl
  simp only [alone, beginCreate, toolCreateIncident,
    NewIncident.refusal, NewIncident.severity, hArg]
  by_cases hSeverity :
      new.severityArg.getD "medium" ∈ severities
  · by_cases hTitle : trimText new.title = ""
    · simp [hSeverity, hTitle, resumeCreate]
    · by_cases hSummary : trimText new.summary = ""
      · simp [hSeverity, hTitle, hSummary, resumeCreate]
      · by_cases hLong :
            new.summary.length > maxSummaryChars
        · simp [hSeverity, hTitle, hSummary, hLong,
            resumeCreate]
        · simp only [hSeverity, hTitle, hSummary, hLong,
            not_true_eq_false, if_false, resumeCreate, hCount,
            Bool.false_eq_true]
          cases hCap :
              dailyCapRefusal
                (createdToday rail.db orgId rail.now)
                maxIncidentsPerOrgPerDay with
          | some refusal => rfl
          | none =>
              cases hCamera : new.cameraId with
              | none => simp [NewIncident.severity, hCamera]
              | some cameraId =>
                  cases known with
                  | false => simp
                  | true =>
                      simp [NewIncident.severity, hCamera]
  · simp [hSeverity, resumeCreate]

--------------------
-- Calls Let Through
--------------------

variable {orgId : String}
variable {day : Int}
variable {c : RailConfig}

/- One for a call that has counted and not yet inserted. -/
def letThrough : CreateCall → Int
| .checking _ _ => 1
| .inserting _ _ => 1
| _ => 0

theorem letThrough_nonneg (call : CreateCall) :
    0 ≤ letThrough call := by
  cases call <;> simp [letThrough]

/-
  If the event is a count that lets its call through, the
  incidents counted and the calls let through before leave
  room for one more.
-/
def CountsWithRoom
    (orgId : String)
    (c : RailConfig)
    (e : RailEvent) : Prop :=
  match Calls.resumed c e with
  | some (.counting _ since, answer) =>
      answer.fails = false →
        createdSince c.shared.db orgId since <
            maxIncidentsPerOrgPerDay →
          (createdSince c.shared.db orgId since : Int) +
              Calls.held letThrough c.calls <
            maxIncidentsPerOrgPerDay
  | _ => True

/- The clock shows a time of the day. -/
def OfDay (day : Int) : RailEvent → Prop
| .start (.clock now) => dayStart now = day
| _ => True

instance (day : Int) : DecidablePred (OfDay day)
| .start (.clock now) =>
    inferInstanceAs (Decidable (dayStart now = day))
| .start (.create _) => isTrue trivial
| .resume _ _ => isTrue trivial

/- The times a call has read are of the day. -/
def CallOfDay (day : Int) : CreateCall → Prop
| .counting _ since => since = day
| .inserting _ now => day ≤ now
| _ => True

/-
  The incidents of the day and the calls let through are
  within the cap.
-/
structure WithinCap
    (orgId : String)
    (day : Int)
    (c : RailConfig) : Prop where
  clock : dayStart c.shared.now = day
  calls : ∀ call ∈ c.calls, CallOfDay day call
  booked :
    (createdSince c.shared.db orgId day : Int) +
        Calls.held letThrough c.calls ≤
      maxIncidentsPerOrgPerDay

theorem dayStart_le (now : Int) : dayStart now ≤ now := by
  have hRest : 0 ≤ now % hours 24 :=
    Int.emod_nonneg _ (by decide)
  unfold dayStart
  omega

theorem createdSince_insertIncident
    (db : Db)
    (since : Int)
    (cameraId : Option String)
    (title summary severity createdBy : String)
    (createdAt updatedAt : Int) :
    createdSince
        (insertIncident db orgId cameraId title summary severity
          createdBy createdAt updatedAt) orgId since =
      createdSince db orgId since +
        if since ≤ createdAt then 1 else 0 := by
  unfold createdSince insertIncident
  rw [List.filter_append, List.length_append]
  by_cases hSince : since ≤ createdAt
  · simp [hSince]
  · simp [hSince]

theorem dailyCapRefusal_eq_none_iff
    {count cap : Nat} :
    dailyCapRefusal count cap = none ↔ count < cap := by
  unfold dailyCapRefusal
  split
  · rename_i hFull
    simp only [reduceCtorEq, false_iff]
    omega
  · rename_i hRoom
    simp only [true_iff]
    omega

/- What one statement can do. -/
theorem resumeCreate_cases
    {rail after : Rail}
    {call next : CreateCall}
    {answer : Answer}
    (hNext :
      resumeCreate orgId rail call answer = (after, next)) :
    (after = rail ∧ ∃ message, next = .refused message) ∨
    (after = rail ∧ call = .created ∧ next = .created) ∨
    (∃ new since,
      call = .counting new since ∧ answer.fails = false ∧
        createdSince rail.db orgId since <
          maxIncidentsPerOrgPerDay ∧
        after = rail ∧
        ((∃ cameraId, next = .checking new cameraId) ∨
          next = .inserting new rail.now)) ∨
    (∃ new cameraId,
      call = .checking new cameraId ∧ after = rail ∧
        next = .inserting new rail.now) ∨
    ∃ new now,
      call = .inserting new now ∧ next = .created ∧
        after =
          { rail with
            db :=
              insertIncident rail.db orgId new.cameraId
                (truncate (trimText new.title) 200)
                (trimText new.summary) new.severity
                (agentLabel new.keyName) now now } := by
  cases call with
  | counting new since =>
      simp only [resumeCreate] at hNext
      split at hNext
      · cases hNext
        exact Or.inl ⟨rfl, _, rfl⟩
      · rename_i hRuns
        split at hNext
        · cases hNext
          exact Or.inl ⟨rfl, _, rfl⟩
        · rename_i hCap
          have hRoom := dailyCapRefusal_eq_none_iff.mp hCap
          have hAnswer : answer.fails = false :=
            Bool.eq_false_iff.mpr hRuns
          refine
            Or.inr (Or.inr (Or.inl
              ⟨new, since, rfl, hAnswer, hRoom, ?_⟩))
          split at hNext
          · rename_i cameraId _
            cases hNext
            exact ⟨rfl, Or.inl ⟨cameraId, rfl⟩⟩
          · cases hNext
            exact ⟨rfl, Or.inr rfl⟩
  | checking new cameraId =>
      simp only [resumeCreate] at hNext
      split at hNext
      · cases hNext
        exact Or.inl ⟨rfl, _, rfl⟩
      · split at hNext
        · cases hNext
          exact Or.inl ⟨rfl, _, rfl⟩
        · cases hNext
          exact
            Or.inr (Or.inr (Or.inr (Or.inl
              ⟨new, cameraId, rfl, rfl, rfl⟩)))
  | inserting new now =>
      simp only [resumeCreate] at hNext
      split at hNext
      · cases hNext
        exact Or.inl ⟨rfl, _, rfl⟩
      · cases hNext
        exact
          Or.inr (Or.inr (Or.inr (Or.inr
            ⟨new, now, rfl, rfl, rfl⟩)))
  | created =>
      cases hNext
      exact Or.inr (Or.inl ⟨rfl, rfl, rfl⟩)
  | refused message =>
      cases hNext
      exact Or.inl ⟨rfl, message, rfl⟩

/- A resumed call, its neighbours standing still. -/
theorem withinCap_resumed
    (hCap : WithinCap orgId day c)
    {id : Nat}
    {call next : CreateCall}
    {answer : Answer}
    {after : Rail}
    (hCall : c.calls[id]? = some call)
    (hNext :
      resumeCreate orgId c.shared call answer = (after, next))
    (hRoom : CountsWithRoom orgId c (.resume id answer)) :
    WithinCap orgId day
      { shared := after, calls := c.calls.set id next } := by
  have hOwn :=
    hCap.calls call (List.mem_of_getElem? hCall)
  have hNow : day ≤ c.shared.now :=
    hCap.clock ▸ dayStart_le c.shared.now
  have hBooked := hCap.booked
  have hHeld := Calls.held_resume letThrough next hCall
  have hNonneg := letThrough_nonneg call
  rcases resumeCreate_cases hNext with
    ⟨rfl, message, rfl⟩ | ⟨rfl, rfl, rfl⟩ |
      ⟨new, since, rfl, hRuns, hPass, rfl, hOn⟩ |
      ⟨new, cameraId, rfl, rfl, rfl⟩ | ⟨new, now, rfl, rfl, rfl⟩
  · have hNone : letThrough (.refused message) = 0 := rfl
    refine
      ⟨hCap.clock, Calls.forall_resumed hCap.calls trivial, ?_⟩
    simp only [hHeld, hNone]
    omega
  · refine
      ⟨hCap.clock, Calls.forall_resumed hCap.calls trivial, ?_⟩
    simp only [hHeld, letThrough]
    omega
  · have hSince : since = day := hOwn
    subst hSince
    simp only [CountsWithRoom, Calls.resumed, hCall,
      Option.map_some] at hRoom
    have hFree := hRoom hRuns hPass
    rcases hOn with ⟨cameraId, rfl⟩ | rfl
    · refine
        ⟨hCap.clock, Calls.forall_resumed hCap.calls trivial,
          ?_⟩
      simp only [hHeld, letThrough]
      omega
    · refine
        ⟨hCap.clock, Calls.forall_resumed hCap.calls hNow, ?_⟩
      simp only [hHeld, letThrough]
      omega
  · refine
      ⟨hCap.clock, Calls.forall_resumed hCap.calls hNow, ?_⟩
    simp only [hHeld, letThrough]
    omega
  · have hDay : day ≤ now := hOwn
    refine
      ⟨hCap.clock, Calls.forall_resumed hCap.calls trivial, ?_⟩
    simp only [hHeld, letThrough, createdSince_insertIncident,
      hDay, if_true]
    omega

/- A count with room is the only step that books more. -/
theorem withinCap_step
    (hCap : WithinCap orgId day c)
    {e : RailEvent}
    (hDay : OfDay day e)
    (hRoom : CountsWithRoom orgId c e) :
    WithinCap orgId day (railStep orgId c e) := by
  cases e with
  | start what =>
      cases what with
      | clock now =>
          refine ⟨hDay, ?_, ?_⟩
          · intro call hIn
            simp only [railStep, Calls.step, createProgram,
              beginCreate, Option.toList_none,
              List.append_nil] at hIn
            exact hCap.calls call hIn
          · simpa [railStep, Calls.step, createProgram,
              beginCreate] using hCap.booked
      | create new =>
          cases hRefusal : new.refusal with
          | some refusal =>
              simp only [railStep, Calls.step, createProgram,
                beginCreate, hRefusal, Option.toList_some]
              refine
                ⟨hCap.clock,
                  Calls.forall_started hCap.calls trivial, ?_⟩
              simpa [Calls.held_append, letThrough] using
                hCap.booked
          | none =>
              simp only [railStep, Calls.step, createProgram,
                beginCreate, hRefusal, Option.toList_some]
              refine
                ⟨hCap.clock,
                  Calls.forall_started hCap.calls hCap.clock,
                  ?_⟩
              simpa [Calls.held_append, letThrough] using
                hCap.booked
  | resume id answer =>
      cases hCall : c.calls[id]? with
      | none => simpa [railStep, Calls.step, hCall] using hCap
      | some call =>
          simp only [railStep, Calls.step, hCall,
            createProgram]
          exact withinCap_resumed hCap hCall rfl hRoom

--------------------
-- Every Interleaving in a Day
--------------------

/-
  While every count that lets a call through leaves room for
  the calls let through before it, the day's incidents stay
  within the cap.
-/
theorem daily_rail_kept
    (orgId : String)
    (rail : Rail)
    (hBefore :
      createdToday rail.db orgId rail.now ≤
        maxIncidentsPerOrgPerDay)
    (events : List RailEvent)
    (hDay :
      ∀ e ∈ events, OfDay (dayStart rail.now) e)
    (hRoom :
      Run.Meets (railStep orgId) (CountsWithRoom orgId)
        (Calls.initial rail) events)
    (past : List RailEvent)
    (hPast : past <+: events) :
    createdToday
        (Run.exec (railStep orgId) (Calls.initial rail)
          past).shared.db
        orgId rail.now ≤
      maxIncidentsPerOrgPerDay := by
  have hInit :
      WithinCap orgId (dayStart rail.now)
        (Calls.initial rail) :=
    ⟨rfl, nofun, by
      simpa [Calls.initial, createdSince, createdToday] using
        hBefore⟩
  have hMeets :
      Run.Meets (railStep orgId)
        (fun c e =>
          OfDay (dayStart rail.now) e ∧
            CountsWithRoom orgId c e)
        (Calls.initial rail) events :=
    Run.meets_and
      (Run.meets_of_forall (fun e hIn _ => hDay e hIn) _)
      hRoom
  have hStep :
      ∀ c e, WithinCap orgId (dayStart rail.now) c →
        OfDay (dayStart rail.now) e ∧
            CountsWithRoom orgId c e →
          WithinCap orgId (dayStart rail.now)
            (railStep orgId c e) :=
    fun _ _ hInv hOk => withinCap_step hInv hOk.1 hOk.2
  have hWithin :=
    Run.invariant_of_prefix hStep hInit hMeets hPast
  have hBooked := hWithin.booked
  have hHeld :=
    Calls.held_nonneg
      (fun call
        (_ : call ∈
          (Run.exec (railStep orgId) (Calls.initial rail)
            past).calls) =>
        letThrough_nonneg call)
  change
    createdSince
        (Run.exec (railStep orgId) (Calls.initial rail)
          past).shared.db
        orgId (dayStart rail.now) ≤
      maxIncidentsPerOrgPerDay
  omega

/- A tool call that names no camera. -/
def motion : NewIncident where
  keyName := "agent"
  title := "Motion"
  summary := "Motion at the gate."
  severityArg := none
  cameraIdArg := none

/- A new installation, at midnight. -/
def midnight : Rail where
  db := Db.empty
  now := 0

def runs : Answer where
  fails := false
  known := true

/- Two calls, the second after the first has inserted. -/
def inTurn : List RailEvent :=
  [.start (.create motion), .resume 0 runs, .resume 0 runs,
    .start (.create motion), .resume 1 runs, .resume 1 runs]

theorem daily_rail_kept_in_turn :
    createdToday
        (Run.exec (railStep "org") (Calls.initial midnight)
          inTurn).shared.db
        "org" 0 ≤
      maxIncidentsPerOrgPerDay :=
  daily_rail_kept "org" midnight (by decide) inTurn (by decide)
    ⟨trivial, fun _ _ => by decide, trivial, trivial,
      fun _ _ => by decide, trivial, trivial⟩
    inTurn (List.prefix_refl _)

/- Calls that all count before any of them inserts. -/
def burst (n : Nat) : List RailEvent :=
  List.replicate n (.start (.create motion)) ++
    (List.range n).map (fun id => .resume id runs) ++
    (List.range n).map (fun id => .resume id runs)

/- What the INSERT of such a call does. -/
def insertMotion (rail : Rail) : Rail :=
  (resumeCreate "org" rail (.inserting motion 0) runs).1

theorem resume_motion (rail : Rail) :
    (createProgram "org").resume rail (.inserting motion 0)
        runs =
      (insertMotion rail, .created) := by
  rfl

theorem created_insertMotion (rail : Rail) :
    createdToday (insertMotion rail).db "org" 0 =
      createdToday rail.db "org" 0 + 1 := by
  exact createdSince_insertIncident rail.db 0 none _ _ _ _ 0 0

theorem created_iterate (n : Nat) (rail : Rail) :
    createdToday (insertMotion^[n] rail).db "org" 0 =
      createdToday rail.db "org" 0 + n := by
  induction n generalizing rail with
  | zero => rfl
  | succ n ih =>
      rw [Function.iterate_succ_apply, ih, created_insertMotion]
      omega

/- Every call of a burst creates an incident. -/
theorem created_burst (n : Nat) :
    createdToday
        (Run.exec (railStep "org") (Calls.initial midnight)
          (burst n)).shared.db
        "org" 0 =
      n := by
  have hStarted :
      Run.exec (railStep "org") (Calls.initial midnight)
          (List.replicate n (.start (.create motion))) =
        { shared := midnight
          calls := List.replicate n (.counting motion 0) } :=
    Calls.exec_startAll rfl n []
  have hCounted :
      Run.exec (railStep "org")
          { shared := midnight
            calls := List.replicate n (.counting motion 0) }
          ((List.range n).map (fun id => .resume id runs)) =
        { shared := id^[n] midnight
          calls := List.replicate n (.inserting motion 0) } := by
    apply Calls.exec_resumeAll (fun rail => rail = midnight)
    · rintro rail rfl
      rfl
    · rintro rail rfl
      rfl
    · rfl
  have hInserted :
      Run.exec (railStep "org")
          { shared := midnight
            calls := List.replicate n (.inserting motion 0) }
          ((List.range n).map (fun id => .resume id runs)) =
        { shared := insertMotion^[n] midnight
          calls := List.replicate n .created } := by
    apply Calls.exec_resumeAll (fun _ => True)
    · exact fun rail _ => resume_motion rail
    · exact fun _ _ => trivial
    · trivial
  rw [burst, Run.exec_append, Run.exec_append, hStarted,
    hCounted, Function.iterate_id, id_eq, hInserted,
    created_iterate]
  exact Nat.zero_add n

/- One call more than the cap, all at midnight. -/
theorem burst_overshoots :
    ¬ ∀ events : List RailEvent,
      (∀ e ∈ events, OfDay 0 e) →
        createdToday
            (Run.exec (railStep "org") (Calls.initial midnight)
              events).shared.db
            "org" 0 ≤
          maxIncidentsPerOrgPerDay := by
  intro hAll
  have hDay : ∀ e ∈ burst 201, OfDay 0 e := by
    intro e hEvent
    simp only [burst, List.mem_append, List.mem_map,
      List.mem_replicate] at hEvent
    rcases hEvent with
      (⟨-, rfl⟩ | ⟨id, -, rfl⟩) | ⟨id, -, rfl⟩
    · trivial
    · trivial
    · trivial
  have hLe := hAll (burst 201) hDay
  rw [created_burst] at hLe
  exact absurd hLe (by decide)

--------------------
-- Overbooking
--------------------

/- The clock and the calls read times of the day. -/
structure InDay (day : Int) (c : RailConfig) : Prop where
  clock : dayStart c.shared.now = day
  calls : ∀ call ∈ c.calls, CallOfDay day call

/- A call about to insert goes on. -/
theorem finish_inserting
    (orgId : String)
    {c : RailConfig}
    (hDay : InDay day c)
    {id : Nat}
    {new : NewIncident}
    {now : Int}
    (hCall : c.calls[id]? = some (.inserting new now)) :
    InDay day (railStep orgId c (.resume id runs)) ∧
      createdSince
          (railStep orgId c (.resume id runs)).shared.db orgId
          day =
        createdSince c.shared.db orgId day + 1 ∧
      Calls.held letThrough
          (railStep orgId c (.resume id runs)).calls =
        Calls.held letThrough c.calls - 1 := by
  have hNow : day ≤ now :=
    hDay.calls _ (List.mem_of_getElem? hCall)
  simp only [railStep, Calls.step, hCall, createProgram,
    resumeCreate, runs, Bool.false_eq_true, if_false]
  refine ⟨⟨hDay.clock, ?_⟩, ?_, ?_⟩
  · exact Calls.forall_resumed hDay.calls trivial
  · simp [createdSince_insertIncident, hNow]
  · rw [Calls.held_resume letThrough _ hCall]
    simp [letThrough]

/- A call whose camera is found goes on to its insert. -/
theorem finish_checking
    (orgId : String)
    {c : RailConfig}
    (hDay : InDay day c)
    {id : Nat}
    {new : NewIncident}
    {cameraId : String}
    (hCall :
      c.calls[id]? = some (.checking new cameraId)) :
    InDay day (railStep orgId c (.resume id runs)) ∧
      (railStep orgId c (.resume id runs)).shared = c.shared ∧
      Calls.held letThrough
          (railStep orgId c (.resume id runs)).calls =
        Calls.held letThrough c.calls ∧
      (railStep orgId c (.resume id runs)).calls[id]? =
        some (.inserting new c.shared.now) := by
  have hNow : day ≤ c.shared.now :=
    hDay.clock ▸ dayStart_le c.shared.now
  rcases List.getElem?_eq_some_iff.mp hCall with ⟨hLt, -⟩
  simp only [railStep, Calls.step, hCall, createProgram,
    resumeCreate, runs, Bool.false_eq_true, if_false,
    Bool.true_eq_false]
  refine ⟨⟨hDay.clock, ?_⟩, trivial, ?_, ?_⟩
  · exact Calls.forall_resumed hDay.calls hNow
  · rw [Calls.held_resume letThrough _ hCall]
    simp [letThrough]
  · exact List.getElem?_set_self hLt

/- A count below the cap lets its call through. -/
theorem count_lets_through
    {c : RailConfig}
    (hDay : InDay day c)
    {id : Nat}
    {new : NewIncident}
    {answer : Answer}
    (hCall : c.calls[id]? = some (.counting new day))
    (hRuns : answer.fails = false)
    (hPass :
      createdSince c.shared.db orgId day <
        maxIncidentsPerOrgPerDay) :
    InDay day (railStep orgId c (.resume id answer)) ∧
      (railStep orgId c (.resume id answer)).shared =
        c.shared ∧
      Calls.held letThrough
          (railStep orgId c (.resume id answer)).calls =
        Calls.held letThrough c.calls + 1 := by
  have hNow : day ≤ c.shared.now :=
    hDay.clock ▸ dayStart_le c.shared.now
  have hCap := dailyCapRefusal_eq_none_iff.mpr hPass
  cases hCamera : new.cameraId with
  | none =>
      simp only [railStep, Calls.step, hCall, createProgram,
        resumeCreate, hRuns, hCap, hCamera, Bool.false_eq_true,
        if_false]
      refine ⟨⟨hDay.clock, ?_⟩, trivial, ?_⟩
      · exact Calls.forall_resumed hDay.calls hNow
      · rw [Calls.held_resume letThrough _ hCall]
        simp [letThrough]
  | some cameraId =>
      simp only [railStep, Calls.step, hCall, createProgram,
        resumeCreate, hRuns, hCap, hCamera, Bool.false_eq_true,
        if_false]
      refine ⟨⟨hDay.clock, ?_⟩, trivial, ?_⟩
      · exact Calls.forall_resumed hDay.calls trivial
      · rw [Calls.held_resume letThrough _ hCall]
        simp [letThrough]

/-
  The calls let through can all go on and insert: by
  induction on how many they are.
-/
theorem let_through_can_insert
    (orgId : String)
    (n : Nat) :
    ∀ c : RailConfig,
      InDay day c →
        Calls.held letThrough c.calls = n →
          ∃ rest : List Nat,
            createdSince
                (Run.exec (railStep orgId) c
                  (rest.map
                    (fun id => .resume id runs))).shared.db
                orgId day =
              createdSince c.shared.db orgId day + n := by
  induction n with
  | zero => exact fun c _ _ => ⟨[], rfl⟩
  | succ n ih =>
      intro c hDay hHeld
      have hSome :
          ∃ call ∈ c.calls, letThrough call ≠ 0 := by
        by_contra hNone
        simp only [ne_eq, not_exists, not_and, not_not] at hNone
        rw [Calls.held_eq_zero hNone] at hHeld
        omega
      rcases hSome with ⟨call, hIn, hThrough⟩
      rcases List.getElem?_of_mem hIn with ⟨id, hCall⟩
      cases call with
      | counting => exact absurd rfl hThrough
      | created => exact absurd rfl hThrough
      | refused => exact absurd rfl hThrough
      | inserting new now =>
          rcases
            finish_inserting orgId hDay hCall with
            ⟨hNext, hCount, hLess⟩
          rcases ih _ hNext (by omega) with ⟨rest, hRest⟩
          refine ⟨id :: rest, ?_⟩
          rw [List.map_cons, Run.exec_cons, hRest, hCount]
          omega
      | checking new cameraId =>
          rcases
            finish_checking orgId hDay hCall with
            ⟨hMid, hShared, hSame, hThere⟩
          rcases
            finish_inserting orgId hMid hThere with
            ⟨hNext, hCount, hLess⟩
          rcases ih _ hNext (by omega) with ⟨rest, hRest⟩
          refine ⟨id :: id :: rest, ?_⟩
          rw [List.map_cons, List.map_cons, Run.exec_cons,
            Run.exec_cons, hRest, hCount, hShared]
          omega

/- Only a count that lets its call through has no room. -/
theorem count_of_no_room
    {c : RailConfig}
    {e : RailEvent}
    (hRoom : ¬ CountsWithRoom orgId c e) :
    ∃ id new since answer,
      e = .resume id answer ∧
        c.calls[id]? = some (.counting new since) ∧
        answer.fails = false ∧
        createdSince c.shared.db orgId since <
          maxIncidentsPerOrgPerDay ∧
        ¬ (createdSince c.shared.db orgId since : Int) +
            Calls.held letThrough c.calls <
          maxIncidentsPerOrgPerDay := by
  unfold CountsWithRoom at hRoom
  split at hRoom
  · rename_i new since answer hResumed
    simp only [Classical.not_imp] at hRoom
    rcases hRoom with ⟨hRuns, hPass, hFull⟩
    cases e with
    | start what => cases hResumed
    | resume id choice =>
        rcases Option.map_eq_some_iff.mp hResumed with
          ⟨call, hCall, hSame⟩
        cases hSame
        exact
          ⟨id, new, since, answer, rfl, hCall, hRuns, hPass,
            hFull⟩
  · exact absurd trivial hRoom

/-
  A count without room is enough: the calls let through by
  then can go on until the day has more than the cap.
-/
theorem overbooked_overshoots
    {c : RailConfig}
    (hDay : InDay day c)
    {e : RailEvent}
    (hRoom : ¬ CountsWithRoom orgId c e) :
    ∃ rest : List Nat,
      maxIncidentsPerOrgPerDay <
        createdSince
          (Run.exec (railStep orgId) c
            (e :: rest.map
              (fun id => .resume id runs))).shared.db
          orgId day := by
  rcases count_of_no_room hRoom with
    ⟨id, new, since, answer, rfl, hCall, hRuns, hPass, hFull⟩
  have hSince : since = day :=
    hDay.calls _ (List.mem_of_getElem? hCall)
  subst hSince
  rcases count_lets_through hDay hCall hRuns hPass with
    ⟨hNext, hShared, hHeld⟩
  have hNonneg :=
    Calls.held_nonneg
      (fun call (_ : call ∈ c.calls) => letThrough_nonneg call)
  rcases
    let_through_can_insert orgId
      (Calls.held letThrough c.calls + 1).toNat _ hNext
      (by omega) with
    ⟨rest, hRest⟩
  refine ⟨rest, ?_⟩
  rw [Run.exec_cons, hRest, hShared]
  omega

end Incidents

end SentinelCommand
