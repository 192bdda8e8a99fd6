import SentinelCommand.Agent.DrainRules

/-
  The bounds a drain keeps: runs in flight, runs of one org,
  one start for each run, and one result for each run that
  was started.

  Main declarations:
    * `Agent.Bounded`
    * `Agent.drain_bounds`
    * `Agent.forgotten_run_starts_again`
-/

--------------------
-- Bounds
--------------------

namespace SentinelCommand

namespace Agent

variable {options : DrainOptions}
variable {d : Drain}
variable {c : Config}

/-
  What a drain promises at any time. The runs started are
  those that ended, each with one result, and those in
  flight.
-/
structure Bounded
    (options : DrainOptions)
    (c : Config) : Prop where
  inFlight :
    c.drain.active.length ≤ max options.maxConcurrent 1
  ofOrg :
    ∀ org,
      (c.drain.active.filter (·.2 = org)).length ≤
        max options.maxPerOrg 1
  once : c.drain.started.Nodup
  counted :
    (c.drain.ended ++ c.drain.active.map Prod.fst).Perm
      c.drain.started
  processed :
    c.drain.summary.processed =
      c.drain.summary.results.countP (·.error.isNone)
  errored :
    c.drain.summary.errored =
      c.drain.summary.results.countP (·.error.isSome) +
        c.drain.failedListings
  stopped :
    c.observed = true →
      ∀ e, (step options c e).drain.started = c.drain.started
  returns :
    ∀ pending, c.phase = .filling pending →
      c.drain.active = [] →
        (∀ run ∈ pending,
          orgOf run = none ∨ runIdOf run ∈ c.drain.started) →
          (step options c .fill).phase = .returned
  idle : c.phase = .returned → c.drain.active = []

/- Runs that may not start are passed over. -/
theorem active_offerAll
    {pending : List Json}
    (hNone : ∀ run ∈ pending, ¬ Offerable options d run) :
    (offerAll options d pending).active = d.active := by
  induction pending generalizing d with
  | nil => rfl
  | cons run rest ih =>
      unfold offerAll
      split
      · rfl
      · rcases offer_cases options d run with
          ⟨-, hSame⟩ | ⟨org, d', hMay, -⟩
        · rw [ih, hSame.active]
          rintro other hOther ⟨hNew, hOrg⟩
          rw [hSame.remembers] at hNew
          rw [hSame.perOrg] at hOrg
          exact
            hNone other (List.mem_cons_of_mem run hOther)
              ⟨hNew, hOrg⟩
        · exact absurd hMay (hNone run List.mem_cons_self)

/- A drain that has seen the flag starts nothing. -/
theorem started_of_observed
    (hOk : ConfigOk options c)
    (hSeen : c.observed = true)
    (e : Event) :
    (step options c e).drain.started = c.drain.started := by
  rcases hOk.observed hSeen with ⟨-, hListing, hFilling⟩
  cases e with
  | insert place run =>
      simp only [step]
      split
      · rfl
      · rfl
  | leave runId => rfl
  | stop => rfl
  | look =>
      simp only [step]
      split
      · split
        · rfl
        · split
          · rfl
          · rfl
      · rfl
  | list failure =>
      simp only [step]
      split
      · rfl
      · rfl
      · rfl
  | fill =>
      -- `hFilling` rules the branch out that fills slots.
      simp only [step]
  | finish place error =>
      simp only [step]
      split
      · rfl
      · rfl
  | tick =>
      simp only [step]
      split
      · rfl
      · rfl

theorem returned_of_none
    (hOk : ConfigOk options c)
    {pending : List Json}
    (hPhase : c.phase = .filling pending)
    (hIdle : c.drain.active = [])
    (hNone :
      ∀ run ∈ pending,
        orgOf run = none ∨ runIdOf run ∈ c.drain.started) :
    (step options c .fill).phase = .returned := by
  simp only [step, hPhase, goOn_eq_returned_iff, fill]
  rw [active_offerAll]
  · exact hIdle
  · rintro run hRun ⟨hNew, org, hOrg, -⟩
    rw [remembers_retain (List.mem_map_of_mem hRun)] at hNew
    rcases hNone run hRun with hNo | hStarted
    · rw [hOrg] at hNo
      cases hNo
    · have hKnown : c.drain.remembers (runIdOf run) = true := by
        rw [remembers_iff, ← or_assoc]
        rcases (mem_started_iff hOk.drain _).mp hStarted with
          hEnded | hFlight
        · exact
            Or.inl
              ((hOk.hand pending hPhase).recalled run hRun
                hEnded)
        · exact Or.inr hFlight
      rw [hNew] at hKnown
      cases hKnown

theorem bounded_of_configOk
    (hOk : ConfigOk options c) :
    Bounded options c where
  inFlight := hOk.drain.slots
  ofOrg := by
    intro org
    rw [← List.countP_eq_length_filter, ← hOk.drain.perOrg org]
    exact hOk.drain.share org
  once := hOk.drain.once
  counted := hOk.drain.split
  processed := hOk.drain.processed
  errored := hOk.drain.errored
  stopped := started_of_observed hOk
  returns := fun _ => returned_of_none hOk
  idle := hOk.idle

/-
  A drain keeps its bounds while every listing shows it the
  runs it has tried that are still pending.
-/
theorem drain_bounds
    (options : DrainOptions)
    (queue : List Json)
    (events : List Event)
    (hListed :
      Run.Meets (step options) (Remembered options)
        (newDrain queue) events) :
    ∀ past, past <+: events →
      Bounded options
        (Run.exec (step options) (newDrain queue) past) := by
  intro past hPrefix
  apply bounded_of_configOk
  exact
    Run.invariant_of_prefix configOk_step
      (configOk_newDrain queue) hListed hPrefix

/- A run of an org, as the queue lists it. -/
def pendingRun (runId org : String) : Json :=
  .object [("id", .string runId), ("org_id", .string org)]

/- Nineteen runs of one org, and the run of another. -/
def backlog : List Json :=
  ["1", "2", "3", "4", "5", "6", "7", "8", "9", "10", "11",
      "12", "13", "14", "15", "16", "17", "18", "19"].map
        (fun runId => pendingRun runId "busy") ++
    [pendingRun "20" "other"]

/- The first listing starts three runs, and one fails. -/
def firstPass : List Event :=
  [.look, .list none, .fill, .finish 2 (some "start: 503")]

/- It is pending still, and is on the second listing. -/
def secondPass : List Event :=
  firstPass ++ [.look, .list none, .fill]

theorem drain_bounds_secondPass :
    Bounded .new
      (Run.exec (step .new) (newDrain backlog) secondPass) :=
  drain_bounds .new backlog secondPass
    ⟨trivial, nofun, trivial, trivial, trivial,
      fun _ hRun _ => List.mem_map_of_mem hRun, trivial,
      trivial⟩
    secondPass (List.prefix_refl _)

/-
  Or a run with an earlier trigger time is added before the
  second listing, so that it is not listed. Then one of the
  other runs is claimed, and it is listed again.
-/
def pushedOut : List Event :=
  firstPass ++
    [.insert 0 (pendingRun "0" "busy"), .look, .list none,
      .fill, .leave "1", .tick, .look, .list none, .fill]

/- The run is started a second time. -/
theorem forgotten_run_starts_again :
    ¬ ∀ (options : DrainOptions)
        (queue : List Json)
        (events : List Event),
      Bounded options
        (Run.exec (step options) (newDrain queue) events) := by
  intro hAll
  have hTwice :
      (Run.exec (step .new) (newDrain backlog)
          pushedOut).drain.started =
        ["1", "2", "20", "20"] := by
    rfl
  have hOnce := (hAll .new backlog pushedOut).once
  rw [hTwice] at hOnce
  exact absurd hOnce (by decide)

--------------------
-- First In, First Out
--------------------

/- A run that is added is the youngest. -/
def Youngest (c : Config) (e : Event) : Prop :=
  match e with
  | .insert place _ => c.queue.length ≤ place
  | _ => True

/-
  A pending run that was started is among the oldest, and so
  is one in hand.
-/
structure Windowed
    (options : DrainOptions)
    (c : Config) : Prop where
  started :
    ∀ run ∈ c.queue, runIdOf run ∈ c.drain.started →
      runIdOf run ∈ (listing options c).map runIdOf
  hand :
    ∀ pending, c.phase = .filling pending →
      ∀ run ∈ c.queue, runIdOf run ∈ pending.map runIdOf →
        runIdOf run ∈ (listing options c).map runIdOf

/- What goes ahead makes room. -/
theorem mem_take_filter
    {α : Type}
    {keeps : α → Bool}
    {rows : List α}
    {row : α}
    {n : Nat}
    (hRow : row ∈ rows.take n)
    (hKept : keeps row = true) :
    row ∈ (rows.filter keeps).take n := by
  induction rows generalizing n with
  | nil => simp at hRow
  | cons first rest ih =>
      cases n with
      | zero => simp at hRow
      | succ n =>
          rw [List.take_succ_cons] at hRow
          rcases List.mem_cons.mp hRow with rfl | hLater
          · rw [List.filter_cons_of_pos hKept,
              List.take_succ_cons]
            exact List.mem_cons_self
          · have hRest := ih hLater
            by_cases hFirst : keeps first = true
            · rw [List.filter_cons_of_pos hFirst,
                List.take_succ_cons]
              exact List.mem_cons_of_mem _ hRest
            · rw [List.filter_cons_of_neg hFirst]
              exact List.take_subset_take_left _
                (Nat.le_succ n) hRest

/- The queue changes, and keeps its oldest runs in the window. -/
theorem windowed_queue
    {queue : List Json}
    {known : List String}
    (hWindow : Windowed options c)
    (hOk : ConfigOk options c)
    (hOld :
      ∀ run ∈ queue, runIdOf run ∈ c.known → run ∈ c.queue)
    (hKept :
      ∀ run ∈ queue,
        runIdOf run ∈ (listing options c).map runIdOf →
          runIdOf run ∈
            (queue.take options.maxRuns).map runIdOf) :
    Windowed options
      { c with queue := queue, known := known } where
  started := by
    intro run hRun hStarted
    apply hKept run hRun
    exact
      hWindow.started run
        (hOld run hRun (hOk.started _ hStarted)) hStarted
  hand := by
    intro pending hPhase run hRun hListed
    apply hKept run hRun
    have hKnown : runIdOf run ∈ c.known := by
      rcases List.mem_map.mp hListed with ⟨other, hOther, hSame⟩
      rw [← hSame]
      exact (hOk.hand pending hPhase).known other hOther
    exact
      hWindow.hand pending hPhase run (hOld run hRun hKnown)
        hListed

theorem windowed_insert
    {place : Nat}
    {run : Json}
    (hWindow : Windowed options c)
    (hOk : ConfigOk options c)
    (hLast : c.queue.length ≤ place) :
    Windowed options (step options c (.insert place run)) := by
  rcases step_insert_cases options c place run with
    hSame | ⟨hNew, hNext⟩
  · rw [hSame]
    exact hWindow
  · rw [hNext, List.take_of_length_le hLast,
      List.drop_eq_nil_of_le hLast]
    apply windowed_queue hWindow hOk
    · intro other hOther hKnown
      rcases List.mem_append.mp hOther with hOld | hLater
      · exact hOld
      · rw [List.mem_singleton.mp hLater] at hKnown
        exact absurd hKnown hNew
    · intro other _ hListed
      rcases List.mem_map.mp hListed with ⟨row, hRow, hSame⟩
      rw [← hSame, List.take_append]
      exact List.mem_map_of_mem (List.mem_append_left _ hRow)

theorem windowed_leave
    (hWindow : Windowed options c)
    (hOk : ConfigOk options c)
    (runId : String) :
    Windowed options (step options c (.leave runId)) := by
  apply windowed_queue hWindow hOk
  · intro run hRun _
    exact List.mem_of_mem_filter hRun
  · intro run hRun hListed
    have hStays := (List.mem_filter.mp hRun).2
    rcases List.mem_map.mp hListed with ⟨row, hRow, hSame⟩
    rw [← hSame] at hStays ⊢
    exact List.mem_map_of_mem (mem_take_filter hRow hStays)

/- The drain goes on, and starts only what it has in hand. -/
theorem windowed_drain
    {next : Config}
    (hWindow : Windowed options c)
    (hQueue : next.queue = c.queue)
    (hStarted :
      ∀ id ∈ next.drain.started,
        id ∈ c.drain.started ∨
          ∃ pending, c.phase = .filling pending ∧
            id ∈ pending.map runIdOf)
    (hHand :
      ∀ pending, next.phase = .filling pending →
        c.phase = .filling pending ∨
          pending = listing options c) :
    Windowed options next where
  started := by
    intro run hRun hNow
    rw [listing, hQueue] at *
    rcases hStarted _ hNow with hOld | ⟨pending, hPhase, hIn⟩
    · exact hWindow.started run hRun hOld
    · exact hWindow.hand pending hPhase run hRun hIn
  hand := by
    intro pending hPhase run hRun hListed
    rw [listing, hQueue] at *
    rcases hHand pending hPhase with hSame | rfl
    · exact hWindow.hand pending hSame run hRun hListed
    · exact hListed

theorem windowed_step
    {e : Event}
    (hWindow : Windowed options c)
    (hOk : ConfigOk options c)
    (hLast : Youngest c e) :
    Windowed options (step options c e) := by
  cases e with
  | insert place run => exact windowed_insert hWindow hOk hLast
  | leave runId => exact windowed_leave hWindow hOk runId
  | stop => exact ⟨hWindow.started, hWindow.hand⟩
  | look =>
      simp only [step]
      split
      · split
        · exact ⟨hWindow.started, by simp⟩
        · split
          · exact ⟨hWindow.started, by simp⟩
          · exact ⟨hWindow.started, by simp⟩
      · exact hWindow
  | list failure =>
      simp only [step]
      split
      · refine windowed_drain hWindow ?_ ?_ ?_
        · rfl
        · exact fun _ hId => Or.inl hId
        · intro pending hPhase
          cases hPhase
          exact Or.inr rfl
      · exact ⟨hWindow.started, by simp⟩
      · exact hWindow
  | fill =>
      simp only [step]
      split
      · rename_i pending hPhase
        refine windowed_drain hWindow ?_ ?_ ?_
        · rfl
        · intro id hId
          rcases started_offerAll hId with hOld | hNew
          · exact Or.inl hOld
          · exact Or.inr ⟨pending, hPhase, hNew⟩
        · simp
      · exact hWindow
  | finish place error =>
      simp only [step]
      split
      · exact ⟨hWindow.started, by simp⟩
      · exact hWindow
  | tick =>
      simp only [step]
      split
      · exact ⟨hWindow.started, by simp⟩
      · exact hWindow

/- A run that was started is listed as long as it is pending. -/
theorem remembered_of_windowed
    (hWindow : Windowed options c)
    (hOk : ConfigOk options c)
    (e : Event) :
    Remembered options c e := by
  unfold Remembered
  split
  · intro run hRun hEnded
    apply hWindow.started run hRun
    exact (mem_started_iff hOk.drain _).mpr (Or.inl hEnded)
  · trivial

/- On a queue that is first in, first out, nothing else is needed. -/
theorem drain_bounds_of_fifo
    (options : DrainOptions)
    (queue : List Json)
    (events : List Event)
    (hFifo :
      Run.Meets (step options) Youngest (newDrain queue)
        events) :
    ∀ past, past <+: events →
      Bounded options
        (Run.exec (step options) (newDrain queue) past) := by
  intro past hPrefix
  have hStep :
      ∀ c e, ConfigOk options c ∧ Windowed options c →
        Youngest c e →
          ConfigOk options (step options c e) ∧
            Windowed options (step options c e) := by
    rintro c e ⟨hOk, hWindow⟩ hLast
    have hListed := remembered_of_windowed hWindow hOk e
    exact
      ⟨configOk_step c e hOk hListed,
        windowed_step hWindow hOk hLast⟩
  have hStart : Windowed options (newDrain queue) :=
    ⟨nofun, nofun⟩
  have hEnd :=
    Run.invariant_of_prefix hStep
      ⟨configOk_newDrain queue, hStart⟩ hFifo hPrefix
  exact bounded_of_configOk hEnd.1

/- A run that is added between two listings, at the end. -/
def addedLast : List Event :=
  firstPass ++
    [.insert 20 (pendingRun "21" "other"), .look, .list none,
      .fill]

theorem drain_bounds_of_fifo_addedLast :
    Bounded .new
      (Run.exec (step .new) (newDrain backlog) addedLast) :=
  drain_bounds_of_fifo .new backlog addedLast
    ⟨trivial, trivial, trivial, trivial, Nat.le_refl 20,
      trivial, trivial, trivial, trivial⟩
    addedLast (List.prefix_refl _)

end Agent

end SentinelCommand
