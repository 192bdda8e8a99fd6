import SentinelCommand.Agent.DrainBounds

/-
  Whether a run that could be started makes the drain start
  one.

  The per-org share keeps one org from taking every slot. But
  the drain sees only the oldest runs: when all of them belong
  to orgs at their share, a run behind them waits, however
  many slots are free.

  Main declarations:
    * `Agent.CouldStart`, `Agent.PassIsFair`
    * `Agent.pass_is_fair`
    * `Agent.backlog_hides_another_org`
-/

--------------------
-- One Pass
--------------------

namespace SentinelCommand

namespace Agent

variable {options : DrainOptions}
variable {d : Drain}
variable {c : Config}

/-
  A pending run of an org that is below its share while a
  slot is free. The drain has not tried it.
-/
structure CouldStart
    (options : DrainOptions)
    (c : Config)
    (run : Json) : Prop where
  pending : run ∈ c.queue
  untried : runIdOf run ∉ c.drain.started
  ofOrg :
    ∃ org, orgOf run = some org ∧
      (c.drain.active.filter (·.2 = org)).length <
        max options.maxPerOrg 1
  slot : c.drain.active.length < max options.maxConcurrent 1

/- The listing is answered, and slots are filled from it. -/
def pass (options : DrainOptions) (c : Config) : Config :=
  Run.exec (step options) c [.list none, .fill]

/- If a run could be started, the pass starts one. -/
def PassIsFair (options : DrainOptions) (c : Config) : Prop :=
  c.phase = .listing →
    (∃ run, CouldStart options c run) →
      c.drain.started.length <
        (pass options c).drain.started.length

/-
  If a run could be started, one of those listed is of an org
  with room, and not one the drain remembers.
-/
def WindowShows (options : DrainOptions) (c : Config) : Prop :=
  c.phase = .listing →
    (∃ run, CouldStart options c run) →
      ∃ run ∈ listing options c, Offerable options c.drain run

theorem length_offer_le
    (d : Drain)
    (run : Json) :
    d.started.length ≤
      (offer options d run).started.length := by
  rcases offer_cases options d run with
    ⟨-, hSame⟩ | ⟨org, d', -, -, -, hSame, hLaunch⟩
  · exact Nat.le_of_eq (congrArg List.length hSame.started).symm
  · rw [hLaunch, launch, hSame.started, List.length_append]
    exact Nat.le_add_right _ _

theorem length_offerAll_le
    (options : DrainOptions)
    (d : Drain)
    (pending : List Json) :
    d.started.length ≤
      (offerAll options d pending).started.length := by
  induction pending generalizing d with
  | nil => exact Nat.le_refl _
  | cons run rest ih =>
      unfold offerAll
      split
      · exact Nat.le_refl _
      · exact Nat.le_trans (length_offer_le d run) (ih _)

/- A run that may not start leaves the others as they were. -/
theorem offerable_sameWork
    {d' : Drain}
    (hSame : SameWork d d')
    (run : Json) :
    Offerable options d' run ↔ Offerable options d run := by
  rw [Offerable, Offerable, hSame.remembers, hSame.perOrg]

/-
  While a slot is free, the loop starts a run exactly when
  one of those listed may start.
-/
theorem length_offerAll_iff
    {pending : List Json}
    (hSlot : d.active.length < options.slots) :
    d.started.length <
        (offerAll options d pending).started.length ↔
      ∃ run ∈ pending, Offerable options d run := by
  induction pending generalizing d with
  | nil => simp [offerAll]
  | cons run rest ih =>
      rw [offerAll, if_neg (Nat.not_le_of_lt hSlot)]
      simp only [List.mem_cons, exists_eq_or_imp]
      rcases offer_cases options d run with
        ⟨hNot, hSame⟩ | ⟨org, d', hMay, -, -, hSame, hLaunch⟩
      · have hRoom :
            (offer options d run).active.length <
              options.slots := by
          rw [hSame.active]
          exact hSlot
        have hRest := ih hRoom
        simp only [hSame.started,
          offerable_sameWork hSame] at hRest
        simp only [hNot, false_or]
        exact hRest
      · simp only [hMay, true_or, iff_true]
        have hLater :=
          length_offerAll_le options (offer options d run) rest
        have hMore :
            (offer options d run).started.length =
              d.started.length + 1 := by
          rw [hLaunch, launch, List.length_append,
            hSame.started, List.length_singleton]
        omega

theorem offerable_retain
    {listed : List String}
    {run : Json}
    (hListed : runIdOf run ∈ listed) :
    Offerable options (retain d listed) run ↔
      Offerable options d run := by
  rw [Offerable, Offerable, remembers_retain hListed]
  rfl

theorem length_fill_iff
    {pending : List Json}
    (hSlot : d.active.length < options.slots) :
    d.started.length <
        (fill options d pending).started.length ↔
      ∃ run ∈ pending, Offerable options d run := by
  have hRoom :
      (retain d (pending.map runIdOf)).active.length <
        options.slots :=
    hSlot
  refine
    (length_offerAll_iff hRoom).trans
      (exists_congr (fun run => ?_))
  exact
    and_congr_right
      (fun hRun =>
        offerable_retain (List.mem_map_of_mem hRun))

--------------------
-- Every Pass
--------------------

theorem drain_pass
    (hPhase : c.phase = .listing) :
    (pass options c).drain =
      fill options c.drain (listing options c) := by
  simp [pass, step, hPhase]

/-
  In every state of every run, a pass is fair exactly when
  its window shows a run that may start.
-/
theorem pass_is_fair
    (options : DrainOptions)
    (queue : List Json)
    (events : List Event) :
    PassIsFair options
        (Run.exec (step options) (newDrain queue) events) ↔
      WindowShows options
        (Run.exec (step options) (newDrain queue) events) := by
  apply forall_congr'
  intro hPhase
  rw [drain_pass hPhase]
  apply forall_congr'
  rintro ⟨run, hCould⟩
  exact length_fill_iff hCould.slot

/- Twenty-two runs of one org, and behind them another's. -/
def longBacklog : List Json :=
  ["1", "2", "3", "4", "5", "6", "7", "8", "9", "10", "11",
      "12", "13", "14", "15", "16", "17", "18", "19", "20",
      "21", "22"].map
        (fun runId => pendingRun runId "busy") ++
    [pendingRun "23" "other"]

/- Two runs are claimed, and the drain looks again. -/
def secondLook : List Event :=
  [.look, .list none, .fill, .leave "1", .leave "2", .tick,
    .look]

/- Two slots are free, and the other org waits. -/
theorem backlog_hides_another_org :
    ¬ ∀ (options : DrainOptions)
        (queue : List Json)
        (events : List Event),
      PassIsFair options
        (Run.exec (step options) (newDrain queue) events) := by
  intro hAll
  have hCould :
      CouldStart .new
        (Run.exec (step .new) (newDrain longBacklog) secondLook)
        (pendingRun "23" "other") := by
    refine ⟨?_, by decide, ⟨"other", rfl, by decide⟩, by decide⟩
    exact List.mem_of_getElem? (i := 20) rfl
  have hMore :=
    hAll .new longBacklog secondLook rfl ⟨_, hCould⟩
  exact absurd hMore (by decide)

/-
  A queue that fits the window hides nobody, as long as the
  drain has the ended runs in mind.
-/
theorem fair_of_short_queue
    (hOk : ConfigOk options c)
    (hShort : c.queue.length ≤ options.maxRuns) :
    PassIsFair options c := by
  rintro hPhase ⟨run, hCould⟩
  rw [drain_pass hPhase, length_fill_iff hCould.slot]
  rcases hCould.ofOrg with ⟨org, hOrg, hRoom⟩
  refine ⟨run, ?_, ?_, org, hOrg, ?_⟩
  · rw [listing, List.take_of_length_le hShort]
    exact hCould.pending
  · by_contra hKnown
    apply hCould.untried
    rw [Bool.not_eq_false, remembers_iff] at hKnown
    apply (mem_started_iff hOk.drain _).mpr
    rcases hKnown with hFailed | hFinished | hFlight
    · exact Or.inl (hOk.drain.ended _ (Or.inl hFailed))
    · exact Or.inl (hOk.drain.ended _ (Or.inr hFinished))
    · exact Or.inr hFlight
  · rw [hOk.drain.perOrg org, List.countP_eq_length_filter]
    exact hRoom

end Agent

end SentinelCommand
