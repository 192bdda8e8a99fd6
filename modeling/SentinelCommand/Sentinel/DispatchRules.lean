import SentinelCommand.Sentinel.Dispatch

/-
  What a request that queues a run relies on and guarantees,
  and what it knows when it commits: a recount under the lock
  of its organization, and the checks it passed before.

  Main declarations:
    * `Sentinel.DispatchGuar`
    * `Sentinel.Backed`
    * `Sentinel.valid_startDispatch`
-/

--------------------
-- Guarantees
--------------------

namespace SentinelCommand

namespace Sentinel

open Interleaving

/- A key is held by one request at a time. -/
def Exclusive (locks : List (Int × Nat)) : Prop :=
  ∀ key first second,
    (key, first) ∈ locks → (key, second) ∈ locks →
      first = second

def orgLock (env : DispatchEnv) (orgId : String) : Int :=
  env.hashtext (runCapLockKey orgId)

/-
  Time does not go back, a request adds rows only of an
  organization whose lock it holds, and it leaves the locks
  of the others alone.
-/
structure DispatchGuar
    (env : DispatchEnv)
    (id : Nat)
    (s s' : Fleet) : Prop where
  clock : s.clock ≤ s'.clock
  runs :
    s'.runs = s.runs ∨
      ∃ row, s'.runs = s.runs ++ [row] ∧
        (orgLock env row.orgId, id) ∈ s.locks
  kept :
    ∀ key other, other ≠ id →
      (key, other) ∈ s.locks → (key, other) ∈ s'.locks
  exclusive : Exclusive s.locks → Exclusive s'.locks

/- A property of the committed rows, beside the locks. -/
structure DispatchInv
    (Keeps : List SentinelRunRow → Prop)
    (s : Fleet) : Prop where
  runs : Keeps s.runs
  exclusive : Exclusive s.locks

theorem dispatchGuar_of_same
    {env : DispatchEnv}
    {id : Nat}
    {s s' : Fleet}
    (hClock : s.clock ≤ s'.clock)
    (hRuns : s'.runs = s.runs)
    (hLocks : s'.locks = s.locks) :
    DispatchGuar env id s s' where
  clock := hClock
  runs := Or.inl hRuns
  kept := by
    intro key other _ hMem
    rw [hLocks]
    exact hMem
  exclusive := by
    intro hExclusive
    rw [hLocks]
    exact hExclusive

theorem mem_release
    {s : Fleet}
    {id : Nat}
    {lock : Int × Nat} :
    lock ∈ (s.release id).locks ↔
      lock ∈ s.locks ∧ lock.2 ≠ id := by
  unfold Fleet.release
  rw [List.mem_filter, bne_iff_ne]

theorem exclusive_release
    {s : Fleet}
    {id : Nat}
    (hExclusive : Exclusive s.locks) :
    Exclusive (s.release id).locks := by
  intro key first second hFirst hSecond
  exact hExclusive key first second (mem_release.mp hFirst).1
    (mem_release.mp hSecond).1

theorem dispatchGuar_release
    (env : DispatchEnv)
    (id : Nat)
    (s : Fleet) :
    DispatchGuar env id s (s.release id) where
  clock := Int.le_refl _
  runs := Or.inl rfl
  kept := fun _ _ hOther hMem =>
    mem_release.mpr ⟨hMem, hOther⟩
  exclusive := exclusive_release

theorem exclusive_cons
    {locks : List (Int × Nat)}
    {key : Int}
    {id : Nat}
    (hFree : ∀ other, (key, other) ∉ locks)
    (hExclusive : Exclusive locks) :
    Exclusive ((key, id) :: locks) := by
  intro held first second hFirst hSecond
  rcases List.mem_cons.mp hFirst with hNew | hOld
  · rcases List.mem_cons.mp hSecond with hNew' | hOld'
    · cases hNew
      cases hNew'
      rfl
    · cases hNew
      exact absurd hOld' (hFree second)
  · rcases List.mem_cons.mp hSecond with hNew' | hOld'
    · cases hNew'
      exact absurd hOld (hFree first)
    · exact hExclusive held first second hOld hOld'

variable {env : DispatchEnv} {id : Nat} {s s' : Fleet}

theorem clock_le_of_rely
    (hRely : Rely (DispatchGuar env) id s s') :
    s.clock ≤ s'.clock := by
  apply rely_stable
    (P := fun now => s.clock ≤ now.clock) ?_ hRely
    (Int.le_refl _)
  intro other before after _ hGuar hBefore
  exact Int.le_trans hBefore hGuar.clock

theorem longer_of_guar
    {other : Nat}
    (hGuar : DispatchGuar env other s s') :
    s.runs <+: s'.runs := by
  rcases hGuar.runs with hSame | ⟨row, hMore, _⟩
  · exact ⟨[], (List.append_nil _).trans hSame.symm⟩
  · exact ⟨[row], hMore.symm⟩

/- Committed rows stay where they are. -/
theorem longer_of_rely
    (hRely : Rely (DispatchGuar env) id s s') :
    s.runs <+: s'.runs := by
  apply rely_stable
    (P := fun now => s.runs <+: now.runs) ?_ hRely
    (List.prefix_refl _)
  intro other before after _ hGuar hBefore
  exact hBefore.trans (longer_of_guar hGuar)

/- The lock, and the rows it protects. -/
structure Locked
    (env : DispatchEnv)
    (id : Nat)
    (orgId : String)
    (rows : List SentinelRunRow)
    (s : Fleet) : Prop where
  mine : (orgLock env orgId, id) ∈ s.locks
  exclusive : Exclusive s.locks
  rows :
    s.runs.filter (fun row => row.orgId == orgId) = rows

/- Nobody else commits a row of a locked organization. -/
theorem locked_of_rely
    {orgId : String}
    {rows : List SentinelRunRow}
    (hRely : Rely (DispatchGuar env) id s s')
    (hLocked : Locked env id orgId rows s) :
    Locked env id orgId rows s' := by
  apply rely_stable
    (P := Locked env id orgId rows) ?_ hRely hLocked
  intro other before after hOther hGuar hBefore
  refine ⟨?_, hGuar.exclusive hBefore.exclusive, ?_⟩
  · exact hGuar.kept _ id (Ne.symm hOther) hBefore.mine
  · rcases hGuar.runs with hSame | ⟨row, hMore, hHeld⟩
    · rw [hSame]
      exact hBefore.rows
    · have hForeign : (row.orgId == orgId) = false := by
        apply beq_false_of_ne
        rintro rfl
        exact hOther
          (hBefore.exclusive _ _ _ hHeld hBefore.mine)
      rw [hMore, List.filter_append, hBefore.rows,
        List.filter_cons_of_neg, List.filter_nil,
        List.append_nil]
      rw [hForeign]
      exact Bool.false_ne_true

theorem orgRunsSince_filter
    (runs : List SentinelRunRow)
    (orgId : String)
    (since : Int) :
    orgRunsSince runs orgId since =
      (runs.filter (fun row => row.orgId == orgId)).countP
        (fun row => since ≤ row.triggeredAt) := by
  unfold orgRunsSince
  rw [List.countP_filter]
  congr 1
  funext row
  rw [Bool.and_comm]

--------------------
-- What a Commit Knows
--------------------

/- The fleet ceiling was passed at some earlier point. -/
def FleetBacked
    (env : DispatchEnv)
    (fleet : Option FleetCheck)
    (runs : List SentinelRunRow) : Prop :=
  0 < env.sentinelGlobalMonthlyRunCap →
    ∃ check, fleet = some check ∧
      check.seen ≤ runs.length ∧
        check.headroom =
          env.sentinelGlobalMonthlyRunCap -
            runsSince (runs.take check.seen) check.since

/- No run that was seen is within the cooldown of `instant`. -/
def CooldownBacked
    (env : DispatchEnv)
    (orgId triggerType : String)
    (cameraId : Option String)
    (cooldownSeen : Option Nat)
    (instant : Int)
    (runs : List SentinelRunRow) : Prop :=
  ∀ cfg camera, env.configs orgId = some cfg →
    triggerType = "motion" → cameraId = some camera →
      camera ≠ "" → 0 < cfg.motionCooldownMin →
        ∃ seen, cooldownSeen = some seen ∧
          seen ≤ runs.length ∧
            ∀ row ∈ runs.take seen,
              motionRunOf orgId camera row = true →
                row.triggeredAt +
                  minutes cfg.motionCooldownMin < instant

/- What is behind a row when it is committed. -/
structure Backed
    (env : DispatchEnv)
    (note : CommitNote)
    (runs : List SentinelRunRow) : Prop where
  recount :
    (orgRunsSince (runs ++ [note.row]) note.row.orgId
        note.recountSince : Int) ≤
      capForPlan (env.effectivePlanForCaps note.row.orgId)
  month :
    ∃ recountedAt, note.row.triggeredAt ≤ recountedAt ∧
      note.recountSince = startOfMonth recountedAt
  fleet : FleetBacked env note.fleet runs
  cooldown :
    CooldownBacked env note.row.orgId note.row.triggerType
      note.row.cameraId note.cooldownSeen note.row.triggeredAt
      runs

/- A property that every permitted commit keeps. -/
def Preserved
    (env : DispatchEnv)
    (Keeps : List SentinelRunRow → Prop)
    (ok : DispatchLabel → Fleet → Prop) : Prop :=
  ∀ note s, Keeps s.runs → Backed env note s.runs →
    ok (.commit note) s → Keeps (s.runs ++ [note.row])

theorem take_of_longer
    {runs runs' : List SentinelRunRow}
    {seen : Nat}
    (hPrefix : runs <+: runs')
    (hSeen : seen ≤ runs.length) :
    runs'.take seen = runs.take seen := by
  rcases hPrefix with ⟨more, rfl⟩
  exact List.take_append_of_le_length hSeen

theorem fleetBacked_of_longer
    {env : DispatchEnv}
    {fleet : Option FleetCheck}
    {runs runs' : List SentinelRunRow}
    (hPrefix : runs <+: runs')
    (hBacked : FleetBacked env fleet runs) :
    FleetBacked env fleet runs' := by
  intro hCeiling
  rcases hBacked hCeiling with
    ⟨check, hCheck, hSeen, hHeadroom⟩
  refine ⟨check, hCheck, Nat.le_trans hSeen hPrefix.length_le, ?_⟩
  rw [take_of_longer hPrefix hSeen]
  exact hHeadroom

theorem cooldownBacked_of_longer
    {env : DispatchEnv}
    {orgId triggerType : String}
    {cameraId : Option String}
    {cooldownSeen : Option Nat}
    {instant later : Int}
    {runs runs' : List SentinelRunRow}
    (hPrefix : runs <+: runs')
    (hLater : instant ≤ later)
    (hBacked :
      CooldownBacked env orgId triggerType cameraId
        cooldownSeen instant runs) :
    CooldownBacked env orgId triggerType cameraId cooldownSeen
      later runs' := by
  intro cfg camera hCfg hType hCamera hNamed hPos
  rcases hBacked cfg camera hCfg hType hCamera hNamed hPos with
    ⟨seen, hSome, hSeen, hRows⟩
  refine ⟨seen, hSome, Nat.le_trans hSeen hPrefix.length_le, ?_⟩
  rw [take_of_longer hPrefix hSeen]
  intro row hRow hMotion
  exact Int.lt_of_lt_of_le (hRows row hRow hMotion) hLater

--------------------
-- Single Statements
--------------------

variable {α : Type} {env : DispatchEnv}
variable {Keeps : List SentinelRunRow → Prop}
variable {ok : DispatchLabel → Fleet → Prop}
variable {id : Nat} {s : Fleet}

abbrev DispatchValid
    (env : DispatchEnv)
    (Keeps : List SentinelRunRow → Prop)
    (ok : DispatchLabel → Fleet → Prop)
    (id : Nat) : Fleet → DispatchThread → Prop :=
  Valid (DispatchInv Keeps) (DispatchGuar env) ok id

theorem valid_query
    {f : Fleet → α}
    {next : α → DispatchThread}
    (hNext :
      ∀ now, Rely (DispatchGuar env) id s now →
        DispatchInv Keeps now →
          DispatchValid env Keeps ok id now (next (f now))) :
    DispatchValid env Keeps ok id s (query f next) := by
  apply valid_atomic
  intro now hRely hInv _
  exact ⟨hInv,
    dispatchGuar_of_same (Int.le_refl _) rfl rfl,
    hNext now hRely hInv⟩

theorem valid_now
    {next : Int → DispatchThread}
    (hNext :
      ∀ now, Rely (DispatchGuar env) id s now →
        DispatchInv Keeps now →
          DispatchValid env Keeps ok id now
            (next now.clock)) :
    DispatchValid env Keeps ok id s
      (Sentinel.now next) :=
  valid_query hNext

theorem valid_respond
    (answer : DispatchAnswer) :
    DispatchValid env Keeps ok id s (respond id answer) := by
  apply valid_atomic
  intro now _ hInv _
  exact ⟨⟨hInv.runs, hInv.exclusive⟩,
    dispatchGuar_of_same (Int.le_refl _) rfl rfl,
    Valid.done _⟩

theorem valid_rollback
    {rest : DispatchThread}
    (hRest : ∀ now, DispatchValid env Keeps ok id now rest) :
    DispatchValid env Keeps ok id s (rollback id rest) := by
  apply valid_atomic
  intro now _ hInv _
  exact ⟨⟨hInv.runs, exclusive_release hInv.exclusive⟩,
    dispatchGuar_release env id now, hRest _⟩

theorem valid_lockForUpdate
    {orgId : String}
    {rest : DispatchThread}
    (hRest :
      ∀ before now,
        Rely (DispatchGuar env) id s before →
          now.clock = before.clock → now.runs = before.runs →
            (orgLock env orgId, id) ∈ now.locks →
              Exclusive now.locks →
                DispatchValid env Keeps ok id now rest) :
    DispatchValid env Keeps ok id s
      (lockForUpdate env id (runCapLockKey orgId) rest) := by
  apply valid_await
  intro now hRely hInv _ hGuard
  have hFree :
      ∀ other, (orgLock env orgId, other) ∉ now.locks := by
    intro other hMem
    have hTaken :
        now.locks.any
            (fun lock =>
              lock.1 == env.hashtext (runCapLockKey orgId)) =
          true :=
      List.any_eq_true.mpr ⟨_, hMem, beq_self_eq_true _⟩
    rw [hTaken] at hGuard
    contradiction
  have hExclusive :
      Exclusive ((orgLock env orgId, id) :: now.locks) :=
    exclusive_cons hFree hInv.exclusive
  refine ⟨⟨hInv.runs, hExclusive⟩, ?_, ?_⟩
  · exact
      { clock := Int.le_refl _
        runs := Or.inl rfl
        kept := fun _ _ _ hMem => List.mem_cons_of_mem _ hMem
        exclusive := fun _ => hExclusive }
  · exact hRest now _ hRely rfl rfl List.mem_cons_self
      hExclusive

/- A commit that what it knows permits. -/
theorem valid_commit
    {note : CommitNote}
    {rest : DispatchThread}
    (hPreserved : Preserved env Keeps ok)
    (hBacked :
      ∀ now, Rely (DispatchGuar env) id s now →
        Backed env note now.runs)
    (hMine :
      ∀ now, Rely (DispatchGuar env) id s now →
        (orgLock env note.row.orgId, id) ∈ now.locks)
    (hRest : ∀ now, DispatchValid env Keeps ok id now rest) :
    DispatchValid env Keeps ok id s (commit id note rest) := by
  apply valid_atomic
  intro now hRely hInv hOk
  refine ⟨⟨?_, ?_⟩, ?_, hRest _⟩
  · exact hPreserved note now hInv.runs (hBacked now hRely) hOk
  · exact exclusive_release hInv.exclusive
  · have hRelease := dispatchGuar_release env id now
    exact
      { clock := Int.le_refl _
        runs := Or.inr ⟨note.row, rfl, hMine now hRely⟩
        kept := hRelease.kept
        exclusive := hRelease.exclusive }

--------------------
-- The Capped Insert
--------------------

variable {env : DispatchEnv}

/- Under the lock the recount is still right at the commit. -/
theorem recount_of_locked
    {orgId : String}
    {row : SentinelRunRow}
    {since : Int}
    {s s' : Fleet}
    (hRows :
      s'.runs.filter (fun row => row.orgId == orgId) =
        s.runs.filter (fun row => row.orgId == orgId)) :
    orgRunsSince (s'.runs ++ [row]) orgId since =
      orgRunsSince (s.runs ++ [row]) orgId since := by
  rw [orgRunsSince_filter, orgRunsSince_filter,
    List.filter_append, List.filter_append, hRows]

/- Under the lock a recount within the cap stays right. -/
theorem recount_le_of_locked
    {counted now : Fleet}
    {orgId : String}
    {rows : List SentinelRunRow}
    {row : SentinelRunRow}
    {since cap : Int}
    (hCounted : Locked env id orgId rows counted)
    (hNow : Locked env id orgId rows now)
    (hCap :
      ¬ cap <
        (orgRunsSince (counted.runs ++ [row]) orgId since :
          Int)) :
    (orgRunsSince (now.runs ++ [row]) orgId since : Int) ≤
      cap := by
  rw [recount_of_locked (hNow.rows.trans hCounted.rows.symm)]
  exact Int.not_lt.mp hCap

theorem valid_commitRunWithCapCheck
    {lookups : Lookups}
    {run : NewRun}
    {fleet : Option FleetCheck}
    {cooldownSeen : Option Nat}
    {next : Inserted → DispatchThread}
    (hPreserved : Preserved env Keeps ok)
    (hFleet : FleetBacked env fleet s.runs)
    (hCooldown :
      CooldownBacked env run.orgId run.triggerType run.cameraId
        cooldownSeen s.clock s.runs)
    (hNext :
      ∀ result now,
        DispatchValid env Keeps ok id now (next result)) :
    DispatchValid env Keeps ok id s
      (commitRunWithCapCheck env lookups id run
        (capForPlan (env.effectivePlanForCaps run.orgId))
        fleet cooldownSeen next) := by
  apply valid_now
  intro triggered hTriggered _
  split
  · apply valid_lockForUpdate
    intro before locked hLocking hClock hRuns hMine hExclusive
    split
    · apply valid_now
      intro recounted hWaiting _
      apply valid_query
      intro counted hCounting _
      have hLocked :
          Locked env id run.orgId
            (locked.runs.filter
              (fun row => row.orgId == run.orgId)) locked :=
        ⟨hMine, hExclusive, rfl⟩
      have hLockedNow :=
        locked_of_rely (hWaiting.trans hCounting) hLocked
      split
      · exact valid_rollback (hNext _)
      · split
        · exact valid_rollback (hNext _)
        · rename_i hCap
          split
          · exact valid_rollback (hNext _)
          · apply valid_commit hPreserved ?_ ?_ (hNext _)
            · intro now hCommitting
              have hLockedLast :=
                locked_of_rely hCommitting hLockedNow
              have hPast :
                  triggered.runs <+: now.runs := by
                have hStart := longer_of_rely hLocking
                rw [← hRuns] at hStart
                exact hStart.trans
                  (longer_of_rely
                    ((hWaiting.trans hCounting).trans
                      hCommitting))
              have hAll : s.runs <+: now.runs :=
                (longer_of_rely hTriggered).trans hPast
              have hRecount :
                  (orgRunsSince
                      (now.runs ++ [run.row triggered.clock])
                      run.orgId
                      (startOfMonth recounted.clock) : Int) ≤
                    capForPlan
                      (env.effectivePlanForCaps
                        run.orgId) :=
                recount_le_of_locked hLockedNow hLockedLast hCap
              refine ⟨hRecount, ?_, ?_, ?_⟩
              · refine ⟨recounted.clock, ?_, rfl⟩
                have hLockClock := clock_le_of_rely hLocking
                rw [← hClock] at hLockClock
                exact Int.le_trans hLockClock
                  (clock_le_of_rely hWaiting)
              · exact fleetBacked_of_longer hAll hFleet
              · exact cooldownBacked_of_longer hAll
                  (clock_le_of_rely hTriggered) hCooldown
            · intro now hCommitting
              exact (locked_of_rely hCommitting
                hLockedNow).mine
    · exact valid_rollback (hNext _)
  · exact hNext _ _

--------------------
-- Gates
--------------------

theorem valid_globalDispatchAllowed
    {lookups : Lookups}
    {next : GlobalAnswer → DispatchThread}
    (hFailed :
      ∀ now, DispatchValid env Keeps ok id now (next .failed))
    (hBlocked :
      ∀ now, DispatchValid env Keeps ok id now (next .blocked))
    (hAllowed :
      ∀ fleet now, FleetBacked env fleet now.runs →
        DispatchValid env Keeps ok id now
          (next (.allowed fleet))) :
    DispatchValid env Keeps ok id s
      (globalDispatchAllowed env lookups next) := by
  unfold globalDispatchAllowed
  split
  · exact hBlocked s
  · split
    · rename_i hNone
      apply hAllowed
      intro hCeiling
      omega
    · apply valid_now
      intro checked _ _
      apply valid_query
      intro now _ _
      split
      · exact hFailed now
      · split
        · apply hAllowed
          intro _
          refine ⟨_, rfl, Nat.le_refl _, ?_⟩
          dsimp only
          rw [List.take_length]
        · exact hBlocked now

theorem valid_runsUsedThisMonth
    {orgId : String}
    {next : Nat → DispatchThread}
    (hNext :
      ∀ used now, Rely (DispatchGuar env) id s now →
        DispatchValid env Keeps ok id now (next used)) :
    DispatchValid env Keeps ok id s
      (runsUsedThisMonth orgId next) := by
  apply valid_now
  intro counted hCounted _
  apply valid_query
  intro now hNow _
  exact hNext _ now (hCounted.trans hNow)

/- A cooldown that is not looked up is not asked about. -/
theorem cooldownBacked_of_none
    {cfg : ConfigRow}
    {orgId kind triggerType : String}
    {cameraId : Option String}
    {instant : Int}
    {runs : List SentinelRunRow}
    (hCfg : env.configs orgId = some cfg)
    (hKind : triggerType = "motion" → kind = "motion")
    (hNone : cooldownFor cfg kind cameraId = none) :
    CooldownBacked env orgId triggerType cameraId none instant
      runs := by
  intro cfg' camera hCfg' hType hCamera hNamed hPos
  have hSame : cfg' = cfg := by
    rw [hCfg] at hCfg'
    exact (Option.some.inj hCfg').symm
  unfold cooldownFor at hNone
  rw [hKind hType, hCamera, ← hSame] at hNone
  rw [if_pos, Option.filter_some, if_pos] at hNone
  · contradiction
  · exact bne_iff_ne.mpr hNamed
  · rw [Bool.and_eq_true]
    exact ⟨beq_self_eq_true _, decide_eq_true hPos⟩

theorem valid_motionCooldownAllows
    {lookups : Lookups}
    {cfg : ConfigRow}
    {orgId kind triggerType : String}
    {cameraId : Option String}
    {next : Option (Option Nat) → DispatchThread}
    (hCfg : env.configs orgId = some cfg)
    (hKind : triggerType = "motion" → kind = "motion")
    (hRefused :
      ∀ now, DispatchValid env Keeps ok id now (next none))
    (hPassed :
      ∀ cooldownSeen now,
        Rely (DispatchGuar env) id s now →
          CooldownBacked env orgId triggerType cameraId
            cooldownSeen now.clock now.runs →
              DispatchValid env Keeps ok id now
                (next (some cooldownSeen))) :
    DispatchValid env Keeps ok id s
      (motionCooldownAllows lookups orgId cfg kind cameraId
        next) := by
  unfold motionCooldownAllows
  split
  · rename_i hNone
    exact hPassed none s (rely_refl _ _ _)
      (cooldownBacked_of_none hCfg hKind hNone)
  · rename_i camera hSome
    apply valid_now
    intro checked hChecked _
    apply valid_query
    intro now hNow _
    dsimp only
    split
    · rename_i hFound
      apply hPassed _ now (hChecked.trans hNow)
      intro cfg' camera' hCfg' _ hCamera _ _
      have hSame : cfg' = cfg := by
        rw [hCfg] at hCfg'
        exact (Option.some.inj hCfg').symm
      have hCameras : camera' = camera := by
        unfold cooldownFor at hSome
        split at hSome
        · have hFilter := (Option.filter_eq_some_iff.mp hSome).1
          rw [hCamera] at hFilter
          exact Option.some.inj hFilter
        · contradiction
      refine ⟨_, rfl, Nat.le_refl _, ?_⟩
      intro row hRow hMotion
      rw [List.take_length] at hRow
      have hOld :
          ¬ checked.clock - minutes cfg.motionCooldownMin ≤
            row.triggeredAt := by
        intro hRecent
        have hAny :
            now.runs.any
                (fun row =>
                  motionRunOf orgId camera row &&
                    decide
                      (checked.clock -
                          minutes cfg.motionCooldownMin ≤
                        row.triggeredAt)) =
              true := by
          apply List.any_eq_true.mpr
          refine ⟨row, hRow, ?_⟩
          rw [← hCameras, hMotion]
          exact decide_eq_true hRecent
        rw [hAny, Bool.and_eq_true] at hFound
        exact Bool.noConfusion hFound.2
      have hClock := clock_le_of_rely hNow
      rw [hSame]
      omega
    · exact hRefused now

theorem kind_of_motion
    {kind field : String}
    (hField : kindToTriggerField kind = some field)
    (hMotion : triggerTypeFor field = "motion") :
    kind = "motion" := by
  unfold kindToTriggerField at hField
  split at hField
  · rfl
  · cases hField
    contradiction
  · contradiction

/- The gates in front of the rows name the trigger's field. -/
theorem field_of_cheapGates
    {orgId kind field : String}
    {cfg : ConfigRow}
    {cameraId : Option String}
    {at' : Int}
    (hGates :
      cheapGates env orgId cfg kind cameraId at' =
        .ok field) :
    kindToTriggerField kind = some field := by
  unfold cheapGates at hGates
  dsimp only at hGates
  split at hGates
  · contradiction
  · split at hGates
    · contradiction
    · split at hGates
      · contradiction
      · split at hGates
        · contradiction
        · rename_i hField
          split at hGates
          · contradiction
          · split at hGates
            · contradiction
            · split at hGates
              · contradiction
              · cases hGates
                exact hField

theorem valid_canDispatchForKind
    {lookups : Lookups}
    {cfg : ConfigRow}
    {orgId kind : String}
    {cameraId : Option String}
    {at' : Int}
    {next :
      Except Refusal (String × Option Nat) → DispatchThread}
    (hCfg : env.configs orgId = some cfg)
    (hRefused :
      ∀ refusal now,
        DispatchValid env Keeps ok id now
          (next (.error refusal)))
    (hPassed :
      ∀ field cooldownSeen now,
        Rely (DispatchGuar env) id s now →
          CooldownBacked env orgId (triggerTypeFor field)
            cameraId cooldownSeen now.clock now.runs →
              DispatchValid env Keeps ok id now
                (next (.ok (field, cooldownSeen)))) :
    DispatchValid env Keeps ok id s
      (canDispatchForKind env lookups orgId cfg kind cameraId
        at' next) := by
  unfold canDispatchForKind
  split
  · exact hRefused _ s
  · rename_i field hGates
    have hField := field_of_cheapGates hGates
    apply valid_motionCooldownAllows hCfg
      (kind_of_motion hField)
    · intro now
      exact hRefused _ now
    · intro cooldownSeen passed hPassing hCooldown
      apply valid_runsUsedThisMonth
      intro used now hNow
      split
      · exact hRefused _ now
      · split
        · exact hRefused _ now
        · exact hPassed field cooldownSeen now
            (hPassing.trans hNow)
            (cooldownBacked_of_longer (longer_of_rely hNow)
              (clock_le_of_rely hNow) hCooldown)

--------------------
-- Requests
--------------------

theorem valid_maybeDispatchForNotification
    {lookups : Lookups}
    {notification : Notification}
    {id : Nat}
    {s : Fleet}
    (hPreserved : Preserved env Keeps ok) :
    DispatchValid env Keeps ok id s
      (maybeDispatchForNotification env lookups notification
        id) := by
  unfold maybeDispatchForNotification
  dsimp only
  apply valid_globalDispatchAllowed
  · exact fun _ => valid_respond _
  · exact fun _ => valid_respond _
  · intro fleet allowed hFleet
    dsimp only
    split
    · exact valid_respond _
    · split
      · exact valid_respond _
      · rename_i cfg hRead
        have hCfg :
            env.configs notification.orgId = some cfg := by
          split at hRead
          · exact hRead
          · contradiction
        apply valid_now
        intro gated hGated _
        apply valid_canDispatchForKind hCfg
        · exact fun _ _ => valid_respond _
        · intro field cooldownSeen passed hPassed hCooldown
          have hPast :=
            longer_of_rely (hGated.trans hPassed)
          apply valid_commitRunWithCapCheck hPreserved
            (fleetBacked_of_longer hPast hFleet) hCooldown
          intro result now
          cases result with
          | stored => exact valid_respond _
          | lostRace used => exact valid_respond _
          | failed => exact valid_respond _

theorem valid_capReached
    {orgId : String}
    {cap : Int}
    {id : Nat}
    {s : Fleet} :
    DispatchValid env Keeps ok id s
      (capReached orgId cap id) := by
  apply valid_runsUsedThisMonth
  exact fun _ _ _ => valid_respond _

/- A manual run has no cooldown. -/
theorem cooldownBacked_manual
    (orgId : String)
    (cameraId : Option String)
    (instant : Int)
    (runs : List SentinelRunRow) :
    CooldownBacked env orgId "manual" cameraId none instant
      runs := by
  intro _ _ _ hType
  contradiction

theorem valid_postManualRun
    {lookups : Lookups}
    {manual : ManualRun}
    {id : Nat}
    {s : Fleet}
    (hPreserved : Preserved env Keeps ok) :
    DispatchValid env Keeps ok id s
      (postManualRun env lookups manual id) := by
  unfold postManualRun
  dsimp only
  split
  · exact valid_respond _
  · apply valid_globalDispatchAllowed
    · exact fun _ => valid_respond _
    · exact fun _ => valid_respond _
    · intro fleet allowed hFleet
      dsimp only
      split
      · exact valid_respond _
      · split
        · exact valid_respond _
        · apply valid_runsUsedThisMonth
          intro used now hNow
          split
          · exact valid_respond _
          · split
            · exact valid_capReached
            · apply valid_commitRunWithCapCheck hPreserved
                (fleetBacked_of_longer (longer_of_rely hNow)
                  hFleet)
                (cooldownBacked_manual _ _ _ _)
              intro result now
              cases result with
              | stored => exact valid_respond _
              | lostRace used => exact valid_capReached
              | failed => exact valid_respond _

theorem valid_startDispatch
    (hPreserved : Preserved env Keeps ok)
    (task : DispatchTask)
    (id : Nat)
    (s : Fleet) :
    DispatchValid env Keeps ok id s
      (startDispatch env task id) := by
  cases task with
  | pass span =>
      unfold startDispatch
      apply valid_atomic
      intro now _ hInv _
      refine ⟨⟨hInv.runs, hInv.exclusive⟩, ?_, Valid.done _⟩
      have hClock : now.clock ≤ now.clock + (span : Int) :=
        Int.le_add_of_nonneg_right (Int.natCast_nonneg span)
      exact dispatchGuar_of_same hClock rfl rfl
  | notify lookups notification =>
      exact valid_maybeDispatchForNotification hPreserved
  | manual lookups manual =>
      exact valid_postManualRun hPreserved

/- Along every permitted run, what commits keep holds. -/
theorem runs_dispatched
    {runs : List SentinelRunRow}
    {clock : Int}
    {events : List (Event DispatchTask)}
    (hPreserved : Preserved env Keeps ok)
    (hStart : Keeps runs)
    (hMeets :
      Run.Meets (step (startDispatch env)) (EventOk ok)
        (initial (Fleet.start runs clock)) events) :
    Keeps (dispatched env runs clock events).runs := by
  have hInit : DispatchInv Keeps (Fleet.start runs clock) :=
    ⟨hStart, fun _ _ _ hFirst =>
      absurd hFirst List.not_mem_nil⟩
  have hInv :=
    sound
      (fun task id s _ =>
        valid_startDispatch hPreserved task id s)
      hInit hMeets
  exact hInv.runs

end Sentinel

end SentinelCommand
