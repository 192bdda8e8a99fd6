import Mathlib.Data.List.Nodup
import Mathlib.Data.List.Perm.Basic
import SentinelCommand.Agent.Drain

/-
  What the sets, the counts and the futures of a drain have to
  do with each other, and with the queue.

  A run that has ended is not started again as long as one of
  the two sets of ended runs still has it. Both forget a run
  that is not on a listing.

  Main declarations:
    * `Agent.DrainOk`, `Agent.drainOk_fill`, `Agent.drainOk_finish`
    * `Agent.offer_cases`
    * `Agent.Remembered`
-/

--------------------
-- What Holds of a Drain
--------------------

namespace SentinelCommand

namespace Agent

variable {options : DrainOptions}
variable {d : Drain}
variable {runId org : String}

/-
  The sets, the counts and the futures agree, and the runs
  started are those that ended and those in flight.
-/
structure DrainOk
    (options : DrainOptions)
    (d : Drain) : Prop where
  flight :
    ∀ id, id ∈ d.inFlight ↔ id ∈ d.active.map Prod.fst
  perOrg :
    ∀ org, d.perOrg org = d.active.countP (·.2 = org)
  slots : d.active.length ≤ options.slots
  share : ∀ org, d.perOrg org ≤ options.share
  once : d.started.Nodup
  split : (d.ended ++ d.active.map Prod.fst).Perm d.started
  ended : ∀ id, id ∈ d.failed ∨ id ∈ d.finished → id ∈ d.ended
  processed :
    d.summary.processed =
      d.summary.results.countP (·.error.isNone)
  errored :
    d.summary.errored =
      d.summary.results.countP (·.error.isSome) +
        d.failedListings

theorem drainOk_new : DrainOk options Drain.new where
  flight := by simp [Drain.new]
  perOrg := by simp [Drain.new]
  slots := Nat.zero_le _
  share := fun _ => Nat.zero_le _
  once := List.nodup_nil
  split := List.Perm.refl _
  ended := by simp [Drain.new]
  processed := rfl
  errored := rfl

@[simp] theorem remembers_iff :
    d.remembers runId = true ↔
      runId ∈ d.failed ∨ runId ∈ d.finished ∨
        runId ∈ d.inFlight := by
  simp [Drain.remembers, or_assoc]

theorem mem_started_iff
    (hOk : DrainOk options d)
    (runId : String) :
    runId ∈ d.started ↔
      runId ∈ d.ended ∨ runId ∈ d.inFlight := by
  rw [← hOk.split.mem_iff, List.mem_append, hOk.flight]

theorem drainOk_retain
    (hOk : DrainOk options d)
    (listed : List String) :
    DrainOk options (retain d listed) where
  flight := hOk.flight
  perOrg := hOk.perOrg
  slots := hOk.slots
  share := hOk.share
  once := hOk.once
  split := hOk.split
  ended := by
    intro id hId
    apply hOk.ended
    rcases hId with hFailed | hFinished
    · exact Or.inl (List.mem_of_mem_filter hFailed)
    · exact Or.inr (List.mem_of_mem_filter hFinished)
  processed := hOk.processed
  errored := hOk.errored

/- Seeing a run leaves all but the counts of the fetched. -/
structure SameWork (d d' : Drain) : Prop where
  finished : d'.finished = d.finished
  failed : d'.failed = d.failed
  inFlight : d'.inFlight = d.inFlight
  perOrg : d'.perOrg = d.perOrg
  active : d'.active = d.active
  started : d'.started = d.started
  failedListings : d'.failedListings = d.failedListings
  processed : d'.summary.processed = d.summary.processed
  errored : d'.summary.errored = d.summary.errored
  results : d'.summary.results = d.summary.results

theorem sameWork_sight
    (d : Drain)
    (runId : String)
    (hasOrg : Bool) :
    SameWork d (sight d runId hasOrg) := by
  unfold sight
  split
  · exact ⟨rfl, rfl, rfl, rfl, rfl, rfl, rfl, rfl, rfl, rfl⟩
  · exact ⟨rfl, rfl, rfl, rfl, rfl, rfl, rfl, rfl, rfl, rfl⟩

theorem SameWork.ended
    {d' : Drain}
    (hSame : SameWork d d') :
    d'.ended = d.ended := by
  rw [Drain.ended, Drain.ended, hSame.results]

theorem SameWork.remembers
    {d' : Drain}
    (hSame : SameWork d d')
    (runId : String) :
    d'.remembers runId = d.remembers runId := by
  rw [Drain.remembers, Drain.remembers, hSame.failed,
    hSame.finished, hSame.inFlight]

theorem drainOk_sameWork
    {d' : Drain}
    (hSame : SameWork d d')
    (hOk : DrainOk options d) :
    DrainOk options d' where
  flight := by
    rw [hSame.inFlight, hSame.active]
    exact hOk.flight
  perOrg := by
    rw [hSame.perOrg, hSame.active]
    exact hOk.perOrg
  slots := by
    rw [hSame.active]
    exact hOk.slots
  share := by
    rw [hSame.perOrg]
    exact hOk.share
  once := by
    rw [hSame.started]
    exact hOk.once
  split := by
    rw [hSame.ended, hSame.active, hSame.started]
    exact hOk.split
  ended := by
    rw [hSame.failed, hSame.finished, hSame.ended]
    exact hOk.ended
  processed := by
    rw [hSame.processed, hSame.results]
    exact hOk.processed
  errored := by
    rw [hSame.errored, hSame.results, hSame.failedListings]
    exact hOk.errored

/- A run that may start is started. -/
theorem drainOk_launch
    (hOk : DrainOk options d)
    (hSlot : d.active.length < options.slots)
    (hShare : d.perOrg org < options.share)
    (hFresh : runId ∉ d.started) :
    DrainOk options (launch d runId org) where
  flight := by
    intro id
    simp only [launch, List.mem_cons, List.map_append,
      List.mem_append, List.map_singleton, List.not_mem_nil,
      or_false, hOk.flight id]
    exact or_comm
  perOrg := by
    intro other
    simp only [launch, List.countP_append,
      List.countP_singleton, ← hOk.perOrg other]
    by_cases hSame : other = org
    · simp [hSame]
    · simp [hSame, Ne.symm hSame]
  slots := by
    simp only [launch, List.length_append, List.length_singleton]
    omega
  share := by
    intro other
    simp only [launch]
    split
    · rename_i hSame
      subst hSame
      omega
    · exact hOk.share other
  once :=
    List.nodup_append.mpr
      ⟨hOk.once, List.nodup_singleton _, by
        intro id hId other hOther
        rw [List.mem_singleton.mp hOther]
        rintro rfl
        exact hFresh hId⟩
  split := by
    simp only [launch, List.map_append, List.map_singleton,
      ← List.append_assoc]
    exact hOk.split.append_right [runId]
  ended := hOk.ended
  processed := hOk.processed
  errored := hOk.errored

theorem drainOk_listingFailed
    (hOk : DrainOk options d)
    (reason : String) :
    DrainOk options (listingFailed d reason) where
  flight := hOk.flight
  perOrg := hOk.perOrg
  slots := hOk.slots
  share := hOk.share
  once := hOk.once
  split := hOk.split
  ended := hOk.ended
  processed := hOk.processed
  errored := by
    simp only [listingFailed, hOk.errored]
    omega

--------------------
-- A Run Ends
--------------------

variable {place : Nat}

/- The run that ended and the others in flight. -/
theorem perm_eraseIdx
    (hRun : d.active[place]? = some (runId, org)) :
    ((runId, org) :: d.active.eraseIdx place).Perm d.active := by
  rcases List.getElem?_eq_some_iff.mp hRun with ⟨hLt, hIs⟩
  rw [← hIs]
  exact List.getElem_cons_eraseIdx_perm hLt

theorem nodup_active
    (hOk : DrainOk options d) :
    (d.active.map Prod.fst).Nodup := by
  have hBoth := (hOk.split.nodup_iff).mpr hOk.once
  exact (List.nodup_append.mp hBoth).2.1

theorem ended_finish
    (d : Drain)
    (place : Nat)
    (runId org : String)
    (error : Option String) :
    (finish d place runId org error).ended =
      d.ended ++ [runId] := by
  simp [Drain.ended, finish]

theorem flight_finish
    (hOk : DrainOk options d)
    (hRun : d.active[place]? = some (runId, org))
    (error : Option String)
    (id : String) :
    id ∈ (finish d place runId org error).inFlight ↔
      id ∈ (finish d place runId org error).active.map
        Prod.fst := by
  have hPerm := (perm_eraseIdx hRun).map Prod.fst
  have hNodup := hPerm.nodup_iff.mpr (nodup_active hOk)
  have hMem := hPerm.mem_iff (a := id)
  rw [List.map_cons] at hNodup hMem
  simp only [List.mem_cons] at hMem
  have hGone := (List.nodup_cons.mp hNodup).1
  simp only [finish, List.mem_filter, decide_eq_true_eq,
    hOk.flight id, ← hMem]
  constructor
  · rintro ⟨hSame | hOther, hNe⟩
    · exact absurd hSame hNe
    · exact hOther
  · intro hOther
    refine ⟨Or.inr hOther, ?_⟩
    rintro rfl
    exact hGone hOther

theorem perOrg_finish
    (hOk : DrainOk options d)
    (hRun : d.active[place]? = some (runId, org))
    (error : Option String)
    (other : String) :
    (finish d place runId org error).perOrg other =
      (d.active.eraseIdx place).countP (·.2 = other) := by
  have hAll := (perm_eraseIdx hRun).countP_eq (·.2 = other)
  simp only [List.countP_cons, decide_eq_true_eq,
    ← hOk.perOrg other] at hAll
  simp only [finish]
  by_cases hSame : other = org
  · simp only [hSame, if_true] at hAll ⊢
    omega
  · simp only [hSame, Ne.symm hSame, if_false] at hAll ⊢
    omega

/- The sets of ended runs gain the run, and nothing else. -/
theorem ended_or_recalled
    {error : Option String}
    {id : String}
    (hId :
      id ∈ (finish d place runId org error).failed ∨
        id ∈ (finish d place runId org error).finished) :
    id = runId ∨ id ∈ d.failed ∨ id ∈ d.finished := by
  cases error with
  | none =>
      simp only [finish, Option.isSome_none, Bool.false_eq_true,
        if_false, List.mem_cons] at hId
      rcases hId with hFailed | hSame | hFinished
      · exact Or.inr (Or.inl hFailed)
      · exact Or.inl hSame
      · exact Or.inr (Or.inr hFinished)
  | some reason =>
      simp only [finish, Option.isSome_some, if_true,
        List.mem_cons] at hId
      rcases hId with (hSame | hFailed) | hFinished
      · exact Or.inl hSame
      · exact Or.inr (Or.inl hFailed)
      · exact Or.inr (Or.inr hFinished)

/- A run that ends is counted, and makes room. -/
theorem drainOk_finish
    (hOk : DrainOk options d)
    (hRun : d.active[place]? = some (runId, org))
    (error : Option String) :
    DrainOk options (finish d place runId org error) := by
  have hPerm := perm_eraseIdx hRun
  constructor
  · exact flight_finish hOk hRun error
  · exact perOrg_finish hOk hRun error
  · have hLength := hPerm.length_eq
    have hSlots := hOk.slots
    simp only [List.length_cons] at hLength
    simp only [finish]
    omega
  · intro other
    refine Nat.le_trans ?_ (hOk.share other)
    simp only [finish]
    split
    · exact Nat.sub_le _ _
    · exact Nat.le_refl _
  · exact hOk.once
  · rw [ended_finish]
    have hIds := hPerm.map Prod.fst
    rw [List.map_cons] at hIds
    have hSplit := (hIds.append_left d.ended).trans hOk.split
    simpa only [finish, List.append_assoc,
      List.singleton_append] using hSplit
  · intro id hId
    rw [ended_finish]
    rcases ended_or_recalled hId with rfl | hOld
    · exact
        List.mem_append_right _ (List.mem_singleton_self _)
    · exact List.mem_append_left _ (hOk.ended id hOld)
  · cases error with
    | none => simp [finish, hOk.processed, List.countP_append]
    | some reason =>
        simp [finish, hOk.processed, List.countP_append]
  · cases error with
    | none => simp [finish, hOk.errored, List.countP_append]
    | some reason =>
        simp [finish, hOk.errored, List.countP_append]
        omega

--------------------
-- Filling Slots
--------------------

/- The drain may start the run now. -/
def Offerable
    (options : DrainOptions)
    (d : Drain)
    (run : Json) : Prop :=
  d.remembers (runIdOf run) = false ∧
    ∃ org, orgOf run = some org ∧ d.perOrg org < options.share

/- What one round of the loop does. -/
theorem offer_cases
    (options : DrainOptions)
    (d : Drain)
    (run : Json) :
    (¬ Offerable options d run ∧
        SameWork d (offer options d run)) ∨
      ∃ org d',
        Offerable options d run ∧ orgOf run = some org ∧
          d.perOrg org < options.share ∧ SameWork d d' ∧
          offer options d run = launch d' (runIdOf run) org := by
  have hSame :=
    sameWork_sight d (runIdOf run) (orgOf run).isSome
  unfold offer
  cases hKnown : d.remembers (runIdOf run) with
  | true =>
      refine Or.inl ⟨fun hMay => ?_, ?_⟩
      · rw [hMay.1] at hKnown
        cases hKnown
      · exact
          ⟨rfl, rfl, rfl, rfl, rfl, rfl, rfl, rfl, rfl, rfl⟩
  | false =>
      simp only [Bool.false_eq_true, if_false]
      cases hOrg : orgOf run with
      | none =>
          rw [hOrg] at hSame
          refine Or.inl ⟨?_, hSame⟩
          rintro ⟨-, org, hSome, -⟩
          rw [hOrg] at hSome
          cases hSome
      | some org =>
          rw [hOrg] at hSame
          simp only [hSame.perOrg]
          by_cases hFull : options.share ≤ d.perOrg org
          · rw [if_pos hFull]
            refine Or.inl ⟨?_, hSame⟩
            rintro ⟨-, other, hSome, hRoom⟩
            rw [hOrg] at hSome
            cases hSome
            omega
          · rw [if_neg hFull]
            have hRoom := Nat.lt_of_not_le hFull
            exact
              Or.inr
                ⟨org, _, ⟨hKnown, org, hOrg, hRoom⟩, rfl,
                  hRoom, hSame, rfl⟩

/- What filling slots leaves as it was. -/
structure Grown (d d' : Drain) : Prop where
  failed : d'.failed = d.failed
  finished : d'.finished = d.finished
  ended : d'.ended = d.ended
  inFlight : ∀ id ∈ d.inFlight, id ∈ d'.inFlight
  started : ∀ id ∈ d.started, id ∈ d'.started

theorem grown_refl (d : Drain) : Grown d d :=
  ⟨rfl, rfl, rfl, fun _ => id, fun _ => id⟩

theorem Grown.trans
    {d' d'' : Drain}
    (hFirst : Grown d d')
    (hSecond : Grown d' d'') :
    Grown d d'' where
  failed := hSecond.failed.trans hFirst.failed
  finished := hSecond.finished.trans hFirst.finished
  ended := hSecond.ended.trans hFirst.ended
  inFlight id hId := hSecond.inFlight id (hFirst.inFlight id hId)
  started id hId := hSecond.started id (hFirst.started id hId)

theorem grown_offer
    (d : Drain)
    (run : Json) :
    Grown d (offer options d run) := by
  rcases offer_cases options d run with
    ⟨-, hSame⟩ | ⟨org, d', -, -, -, hSame, hLaunch⟩
  · refine
      ⟨hSame.failed, hSame.finished, hSame.ended, ?_, ?_⟩
    · rw [hSame.inFlight]
      exact fun _ => id
    · rw [hSame.started]
      exact fun _ => id
  · rw [hLaunch]
    refine ⟨hSame.failed, hSame.finished, hSame.ended, ?_, ?_⟩
    · intro id hId
      rw [← hSame.inFlight] at hId
      exact List.mem_cons_of_mem _ hId
    · intro id hId
      rw [← hSame.started] at hId
      exact List.mem_append_left _ hId

theorem remembers_grown
    {d' : Drain}
    {runId : String}
    (hGrown : Grown d d')
    (hKnown : d.remembers runId = true) :
    d'.remembers runId = true := by
  rw [remembers_iff] at hKnown ⊢
  rw [hGrown.failed, hGrown.finished]
  rcases hKnown with hFailed | hFinished | hFlight
  · exact Or.inl hFailed
  · exact Or.inr (Or.inl hFinished)
  · exact Or.inr (Or.inr (hGrown.inFlight _ hFlight))

/- Every ended run among these is remembered. -/
def Guarded (d : Drain) (pending : List Json) : Prop :=
  ∀ run ∈ pending, runIdOf run ∈ d.ended →
    d.remembers (runIdOf run) = true

theorem drainOk_offer
    {run : Json}
    (hOk : DrainOk options d)
    (hSlot : d.active.length < options.slots)
    (hGuard :
      runIdOf run ∈ d.ended →
        d.remembers (runIdOf run) = true) :
    DrainOk options (offer options d run) := by
  rcases offer_cases options d run with
    ⟨-, hSame⟩ | ⟨org, d', hMay, -, hRoom, hSame, hLaunch⟩
  · exact drainOk_sameWork hSame hOk
  · rw [hLaunch]
    apply drainOk_launch (drainOk_sameWork hSame hOk)
    · rw [hSame.active]
      exact hSlot
    · rw [hSame.perOrg]
      exact hRoom
    · intro hStarted
      rw [hSame.started] at hStarted
      have hKnown : d.remembers (runIdOf run) = true := by
        rcases (mem_started_iff hOk _).mp hStarted with
          hEnded | hFlight
        · exact hGuard hEnded
        · exact remembers_iff.mpr (Or.inr (Or.inr hFlight))
      rw [hMay.1] at hKnown
      cases hKnown

theorem drainOk_offerAll
    {pending : List Json}
    (hOk : DrainOk options d)
    (hGuard : Guarded d pending) :
    DrainOk options (offerAll options d pending) ∧
      Grown d (offerAll options d pending) := by
  induction pending generalizing d with
  | nil => exact ⟨hOk, grown_refl d⟩
  | cons run rest ih =>
      unfold offerAll
      split
      · exact ⟨hOk, grown_refl d⟩
      · rename_i hRoom
        have hGrown : Grown d (offer options d run) :=
          grown_offer d run
        have hNext :
            DrainOk options (offer options d run) :=
          drainOk_offer hOk (Nat.lt_of_not_le hRoom)
            (hGuard run List.mem_cons_self)
        have hRest : Guarded (offer options d run) rest := by
          intro other hOther hEnded
          rw [hGrown.ended] at hEnded
          exact
            remembers_grown hGrown
              (hGuard other (List.mem_cons_of_mem run hOther)
                hEnded)
        rcases ih hNext hRest with ⟨hEnd, hLater⟩
        exact ⟨hEnd, hGrown.trans hLater⟩

/- A listed id is remembered as before. -/
theorem remembers_retain
    {listed : List String}
    {runId : String}
    (hListed : runId ∈ listed) :
    (retain d listed).remembers runId = d.remembers runId := by
  apply Bool.eq_iff_iff.mpr
  simp [remembers_iff, retain, hListed]

theorem drainOk_fill
    {pending : List Json}
    (hOk : DrainOk options d)
    (hGuard : Guarded d pending) :
    DrainOk options (fill options d pending) ∧
      Grown (retain d (pending.map runIdOf))
        (fill options d pending) := by
  apply drainOk_offerAll (drainOk_retain hOk _)
  intro run hRun hEnded
  rw [remembers_retain (List.mem_map_of_mem hRun)]
  exact hGuard run hRun hEnded

--------------------
-- The Bounds along a Run
--------------------

variable {c : Config}

/- The run has ended, and the drain knows. -/
def Recalled (d : Drain) (runId : String) : Prop :=
  runId ∈ d.failed ∨ runId ∈ d.finished

/-
  If the event answers a listing, it lists every run that has
  ended in this drain and is still pending.
-/
def Remembered
    (options : DrainOptions)
    (c : Config)
    (e : Event) : Prop :=
  match c.phase, e with
  | .listing, .list none =>
      ∀ run ∈ c.queue, runIdOf run ∈ c.drain.ended →
        runIdOf run ∈ (listing options c).map runIdOf
  | _, _ => True

/- What is in hand while the listing is gone through. -/
structure HandOk (c : Config) (pending : List Json) : Prop where
  known : ∀ run ∈ pending, runIdOf run ∈ c.known
  recalled :
    ∀ run ∈ pending, runIdOf run ∈ c.drain.ended →
      Recalled c.drain (runIdOf run)
  complete :
    ∀ run ∈ c.queue, runIdOf run ∈ c.drain.ended →
      runIdOf run ∈ pending.map runIdOf

/- What holds of the drain and the queue along a run. -/
structure ConfigOk
    (options : DrainOptions)
    (c : Config) : Prop where
  drain : DrainOk options c.drain
  queued : ∀ run ∈ c.queue, runIdOf run ∈ c.known
  started : ∀ id ∈ c.drain.started, id ∈ c.known
  recalled :
    ∀ run ∈ c.queue, runIdOf run ∈ c.drain.ended →
      Recalled c.drain (runIdOf run)
  hand :
    ∀ pending, c.phase = .filling pending → HandOk c pending
  observed :
    c.observed = true →
      c.stop = true ∧ c.phase ≠ .listing ∧
        ∀ pending, c.phase ≠ .filling pending
  idle : c.phase = .returned → c.drain.active = []

@[simp] theorem goOn_eq_returned_iff :
    goOn d = .returned ↔ d.active = [] := by
  unfold goOn
  cases d.active with
  | nil => simp
  | cons run rest => simp

@[simp] theorem goOn_ne_listing : goOn d ≠ .listing := by
  unfold goOn
  split
  · exact nofun
  · exact nofun

@[simp] theorem goOn_ne_filling (pending : List Json) :
    goOn d ≠ .filling pending := by
  unfold goOn
  split
  · exact nofun
  · exact nofun

theorem ended_known
    (hOk : ConfigOk options c)
    {runId : String}
    (hEnded : runId ∈ c.drain.ended) :
    runId ∈ c.known :=
  hOk.started runId
    ((mem_started_iff hOk.drain runId).mpr (Or.inl hEnded))

/- Only listed runs are started. -/
theorem started_offerAll
    {pending : List Json}
    {runId : String}
    (hStarted :
      runId ∈ (offerAll options d pending).started) :
    runId ∈ d.started ∨ runId ∈ pending.map runIdOf := by
  induction pending generalizing d with
  | nil => exact Or.inl hStarted
  | cons run rest ih =>
      unfold offerAll at hStarted
      split at hStarted
      · exact Or.inl hStarted
      · rcases ih hStarted with hNow | hLater
        · rcases offer_cases options d run with
            ⟨-, hSame⟩ | ⟨org, d', -, -, -, hSame, hLaunch⟩
          · rw [hSame.started] at hNow
            exact Or.inl hNow
          · rw [hLaunch] at hNow
            rcases List.mem_append.mp hNow with hOld | hNew
            · rw [hSame.started] at hOld
              exact Or.inl hOld
            · rw [List.mem_singleton.mp hNew]
              exact Or.inr List.mem_cons_self
        · exact Or.inr (List.mem_cons_of_mem _ hLater)

/- The queue changes under a drain. -/
theorem configOk_queue
    {queue : List Json}
    {known : List String}
    (hOk : ConfigOk options c)
    (hKnown : ∀ id ∈ c.known, id ∈ known)
    (hQueued : ∀ run ∈ queue, runIdOf run ∈ known)
    (hOld :
      ∀ run ∈ queue, runIdOf run ∈ c.known → run ∈ c.queue) :
    ConfigOk options { c with queue := queue, known := known } where
  drain := hOk.drain
  queued := hQueued
  started := fun id hId => hKnown id (hOk.started id hId)
  recalled := by
    intro run hRun hEnded
    exact
      hOk.recalled run
        (hOld run hRun (ended_known hOk hEnded)) hEnded
  hand := by
    intro pending hPhase
    have hHand := hOk.hand pending hPhase
    refine
      ⟨fun run hRun => hKnown _ (hHand.known run hRun),
        hHand.recalled, ?_⟩
    intro run hRun hEnded
    exact
      hHand.complete run
        (hOld run hRun (ended_known hOk hEnded)) hEnded
  observed := hOk.observed
  idle := hOk.idle

theorem configOk_insert
    (hOk : ConfigOk options c)
    (place : Nat)
    (run : Json) :
    ConfigOk options (step options c (.insert place run)) := by
  rcases step_insert_cases options c place run with
    hSame | ⟨hNew, hNext⟩
  · rw [hSame]
    exact hOk
  · rw [hNext]
    have hSplit :
        ∀ other,
          other ∈ c.queue.take place ++
              run :: c.queue.drop place →
            other = run ∨ other ∈ c.queue := by
      intro other hOther
      rcases List.mem_append.mp hOther with hTake | hRest
      · exact Or.inr (List.mem_of_mem_take hTake)
      · rcases List.mem_cons.mp hRest with hIs | hDrop
        · exact Or.inl hIs
        · exact Or.inr (List.mem_of_mem_drop hDrop)
    apply configOk_queue hOk
    · intro id hId
      exact List.mem_cons_of_mem _ hId
    · intro other hOther
      rcases hSplit other hOther with rfl | hOld
      · exact List.mem_cons_self
      · exact List.mem_cons_of_mem _ (hOk.queued other hOld)
    · intro other hOther hWas
      rcases hSplit other hOther with rfl | hOld
      · exact absurd hWas hNew
      · exact hOld

theorem configOk_leave
    (hOk : ConfigOk options c)
    (runId : String) :
    ConfigOk options (step options c (.leave runId)) := by
  apply configOk_queue hOk (fun _ => id)
  · intro run hRun
    exact hOk.queued run (List.mem_of_mem_filter hRun)
  · intro run hRun _
    exact List.mem_of_mem_filter hRun

/- The phase changes, and the drain is as it was. -/
theorem configOk_phase
    {phase : Phase}
    {observed : Bool}
    (hOk : ConfigOk options c)
    (hHand :
      ∀ pending, phase = .filling pending → HandOk c pending)
    (hObserved :
      observed = true →
        c.stop = true ∧ phase ≠ .listing ∧
          ∀ pending, phase ≠ .filling pending)
    (hIdle : phase = .returned → c.drain.active = []) :
    ConfigOk options
      { c with phase := phase, observed := observed } where
  drain := hOk.drain
  queued := hOk.queued
  started := hOk.started
  recalled := hOk.recalled
  hand := by
    intro pending hPhase
    have hNow := hHand pending hPhase
    exact ⟨hNow.known, hNow.recalled, hNow.complete⟩
  observed := hObserved
  idle := hIdle

theorem configOk_look
    (hOk : ConfigOk options c) :
    ConfigOk options (step options c .look) := by
  simp only [step]
  split
  · rename_i hTop
    split
    · rename_i hStop
      exact
        configOk_phase hOk (by simp)
          (fun _ => ⟨hStop, by simp, by simp⟩) (by simp)
    · rename_i hRuns
      have hNotYet : c.observed ≠ true :=
        fun hSeen => hRuns (hOk.observed hSeen).1
      split
      · exact
          configOk_phase hOk (by simp)
            (fun hSeen => absurd hSeen hNotYet) (by simp)
      · exact
          configOk_phase hOk (by simp)
            (fun hSeen => absurd hSeen hNotYet) (by simp)
  · exact hOk

theorem configOk_tick
    (hOk : ConfigOk options c) :
    ConfigOk options (step options c .tick) := by
  simp only [step]
  split
  · rename_i hWaiting
    exact
      configOk_phase hOk (by simp)
        (fun hSeen => ⟨(hOk.observed hSeen).1, by simp, by simp⟩)
        (by simp)
  · exact hOk

/- The listing is answered, or fails. -/
theorem configOk_list
    (hOk : ConfigOk options c)
    (failure : Option String)
    (hListed : Remembered options c (.list failure)) :
    ConfigOk options (step options c (.list failure)) := by
  simp only [step]
  split
  · rename_i hPhase
    have hNotYet : c.observed ≠ true :=
      fun hSeen => (hOk.observed hSeen).2.1 hPhase
    simp only [Remembered, hPhase] at hListed
    refine
      ⟨hOk.drain, hOk.queued, hOk.started, hOk.recalled, ?_,
        fun hSeen => absurd hSeen hNotYet, by simp⟩
    intro pending hIs
    cases hIs
    refine ⟨?_, ?_, hListed⟩
    · intro run hRun
      exact hOk.queued run (List.mem_of_mem_take hRun)
    · intro run hRun
      exact hOk.recalled run (List.mem_of_mem_take hRun)
  · rename_i reason hPhase
    have hNotYet : c.observed ≠ true :=
      fun hSeen => (hOk.observed hSeen).2.1 hPhase
    exact
      { drain := drainOk_listingFailed hOk.drain reason
        queued := hOk.queued
        started := hOk.started
        recalled := hOk.recalled
        hand := by simp
        observed := fun hSeen => absurd hSeen hNotYet
        idle := by simp [listingFailed] }
  · exact hOk

theorem configOk_fill
    (hOk : ConfigOk options c) :
    ConfigOk options (step options c .fill) := by
  simp only [step]
  split
  · rename_i pending hPhase
    have hHand := hOk.hand pending hPhase
    have hNotYet : c.observed ≠ true :=
      fun hSeen => (hOk.observed hSeen).2.2 pending hPhase
    have hGuard : Guarded c.drain pending := by
      intro run hRun hEnded
      rw [remembers_iff, ← or_assoc]
      exact Or.inl (hHand.recalled run hRun hEnded)
    rcases drainOk_fill hOk.drain hGuard with ⟨hNext, hGrown⟩
    refine
      { drain := hNext
        queued := hOk.queued
        started := ?_
        recalled := ?_
        hand := by simp
        observed := fun hSeen => absurd hSeen hNotYet
        idle := by simp }
    · intro id hId
      rcases started_offerAll hId with hOld | hNew
      · exact hOk.started id hOld
      · rcases List.mem_map.mp hNew with ⟨run, hRun, rfl⟩
        exact hHand.known run hRun
    · intro run hRun hEnded
      rw [hGrown.ended] at hEnded
      have hListed := hHand.complete run hRun hEnded
      rw [Recalled, hGrown.failed, hGrown.finished]
      rcases hOk.recalled run hRun hEnded with
        hFailed | hFinished
      · exact
          Or.inl
            (List.mem_filter.mpr
              ⟨hFailed, List.contains_iff_mem.mpr hListed⟩)
      · exact
          Or.inr
            (List.mem_filter.mpr
              ⟨hFinished, List.contains_iff_mem.mpr hListed⟩)
  · exact hOk

/- A run that ends is recalled from then on. -/
theorem recalled_finish
    {place : Nat}
    {runId org other : String}
    {error : Option String}
    (hRecalled :
      other ∈ d.ended → Recalled d other)
    (hEnded :
      other ∈ (finish d place runId org error).ended) :
    Recalled (finish d place runId org error) other := by
  rw [ended_finish] at hEnded
  cases error with
  | none =>
      simp only [Recalled, finish, Option.isSome_none,
        Bool.false_eq_true, if_false, List.mem_cons]
      rcases List.mem_append.mp hEnded with hOld | hNew
      · rcases hRecalled hOld with hFailed | hFinished
        · exact Or.inl hFailed
        · exact Or.inr (Or.inr hFinished)
      · exact Or.inr (Or.inl (List.mem_singleton.mp hNew))
  | some reason =>
      simp only [Recalled, finish, Option.isSome_some, if_true,
        List.mem_cons]
      rcases List.mem_append.mp hEnded with hOld | hNew
      · rcases hRecalled hOld with hFailed | hFinished
        · exact Or.inl (Or.inr hFailed)
        · exact Or.inr hFinished
      · exact Or.inl (Or.inl (List.mem_singleton.mp hNew))

theorem configOk_finish
    (hOk : ConfigOk options c)
    (place : Nat)
    (error : Option String) :
    ConfigOk options (step options c (.finish place error)) := by
  simp only [step]
  split
  · rename_i runId org hPhase hRun
    exact
      { drain := drainOk_finish hOk.drain hRun error
        queued := hOk.queued
        started := hOk.started
        recalled := fun _ hIn hEnded =>
          recalled_finish (hOk.recalled _ hIn) hEnded
        hand := by simp
        observed := fun hSeen =>
          ⟨(hOk.observed hSeen).1, by simp, by simp⟩
        idle := by simp }
  · exact hOk

theorem configOk_step
    (c : Config)
    (e : Event)
    (hOk : ConfigOk options c)
    (hListed : Remembered options c e) :
    ConfigOk options (step options c e) := by
  cases e with
  | insert place run => exact configOk_insert hOk place run
  | leave runId => exact configOk_leave hOk runId
  | stop =>
      exact
        { drain := hOk.drain
          queued := hOk.queued
          started := hOk.started
          recalled := hOk.recalled
          hand := fun pending hPhase =>
            ⟨(hOk.hand pending hPhase).known,
              (hOk.hand pending hPhase).recalled,
              (hOk.hand pending hPhase).complete⟩
          observed := fun hSeen =>
            ⟨rfl, (hOk.observed hSeen).2⟩
          idle := hOk.idle }
  | look => exact configOk_look hOk
  | list failure => exact configOk_list hOk failure hListed
  | fill => exact configOk_fill hOk
  | finish place error => exact configOk_finish hOk place error
  | tick => exact configOk_tick hOk

theorem configOk_newDrain (queue : List Json) :
    ConfigOk options (newDrain queue) where
  drain := drainOk_new
  queued := fun _ hRun => List.mem_map_of_mem hRun
  started := nofun
  recalled := nofun
  hand := nofun
  observed := nofun
  idle := nofun

end Agent

end SentinelCommand
