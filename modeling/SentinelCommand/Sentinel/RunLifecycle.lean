import SentinelCommand.Sentinel.RunThreads

/-
  What can happen to a run row over its whole life: the
  outcome moves one way, one start request at most wins the
  claim, and a severity comes with an incident only.

  Main declarations:
    * `Sentinel.Outcome.mayBecome`
    * `Sentinel.RunInv`, `Sentinel.RunGuar`
    * `Sentinel.run_lifecycle`
-/

--------------------
-- Moves of the Stored Outcome
--------------------

namespace SentinelCommand

namespace Sentinel

open Interleaving

/- The moves a stored outcome makes. -/
def Outcome.mayBecome : Outcome → Outcome → Bool
| .pending, .running => true
| .pending, .incident => true
| .pending, .noAction => true
| .pending, .error => true
| .running, .incident => true
| .running, .noAction => true
| .running, .error => true
| .error, .incident => true
| .error, .noAction => true
| _, _ => false

/- A row is inserted pending and is never removed. -/
def StoredMove :
    Option SentinelRunRow → Option SentinelRunRow → Prop
| none, none => True
| none, some row => row.outcome = .pending
| some _, none => False
| some row, some row' =>
    row'.outcome = row.outcome ∨
      row.outcome.mayBecome row'.outcome = true

/- A severity comes with an incident, and only with one. -/
def SeverityFits (row : SentinelRunRow) : Prop :=
  row.severity.isSome = true ↔ row.outcome = .incident

/- An outcome that no move leaves. -/
def Outcome.isFinal (outcome : Outcome) : Prop :=
  outcome = .incident ∨ outcome = .noAction

/- The row is stored with this outcome. -/
def StoredAs (outcome : Outcome) (s : RunState) : Prop :=
  ∃ row, s.row = some row ∧ row.outcome = outcome

theorem storedMove_refl (row : Option SentinelRunRow) :
    StoredMove row row := by
  cases row with
  | none => trivial
  | some row => exact Or.inl rfl

theorem isFinal_stays
    {outcome outcome' : Outcome}
    (hFinal : outcome.isFinal) :
    outcome.mayBecome outcome' = false := by
  rcases hFinal with rfl | rfl
  · cases outcome' <;> rfl
  · cases outcome' <;> rfl

/- A final outcome survives a move. -/
theorem storedAs_move
    {s s' : RunState}
    {outcome : Outcome}
    (hFinal : outcome.isFinal)
    (hMove : StoredMove s.row s'.row)
    (hStored : StoredAs outcome s) :
    StoredAs outcome s' := by
  rcases hStored with ⟨row, hRow, rfl⟩
  rw [hRow] at hMove
  cases hRow' : s'.row with
  | none => rw [hRow'] at hMove; exact hMove.elim
  | some row' =>
      rw [hRow'] at hMove
      refine ⟨row', hRow', ?_⟩
      rcases hMove with hSame | hMoves
      · exact hSame
      · rw [isFinal_stays hFinal] at hMoves
        contradiction

/- A completion fits one of the moves. -/
theorem mayBecome_of_mayComplete
    {row : SentinelRunRow}
    {outcome : Outcome}
    (hTerminal : outcome.isTerminal = true)
    (hKeeps : mayComplete outcome row = true) :
    row.outcome.mayBecome outcome = true := by
  revert hKeeps
  unfold mayComplete
  cases row.outcome
  all_goals
    revert hTerminal
    cases outcome <;> decide

theorem isTerminal_of_terminal
    {text : String}
    {outcome : Outcome}
    (hTerminal : terminal text = some outcome) :
    outcome.isTerminal = true := by
  unfold terminal at hTerminal
  split at hTerminal
  all_goals
    first
    | contradiction
    | rw [← Option.some.inj hTerminal]; rfl

/- An answer that says `claimed: true`. -/
def isClaim : Except ApiError RunAnswer → Bool
| .ok answer => answer.claimed == some true
| .error _ => false

/- The requests that were told they won. -/
def RunState.claims (s : RunState) : Nat :=
  s.answers.countP (fun entry => isClaim entry.2)

structure RunInv (s : RunState) : Prop where
  past :
    ∀ request, s.winner = some request →
      ∃ row, s.row = some row ∧ row.outcome ≠ .pending
  unclaimed : s.winner = none → s.claims = 0
  once : s.claims ≤ 1
  severity : ∀ row, s.row = some row → SeverityFits row

/-
  A step moves the outcome one way. It names a winner only
  when there was none, and only the winner is told so.
-/
structure RunGuar (id : Nat) (s s' : RunState) : Prop where
  moves : StoredMove s.row s'.row
  winner : s'.winner = s.winner ∨ s.winner = none
  told : s'.claims = s.claims ∨ s.winner = some id

abbrev ValidRun (id : Nat) : RunState → RunThread → Prop :=
  Valid RunInv RunGuar (fun _ _ => True) id

/- The thread won the claim and was not told yet. -/
structure Won (id : Nat) (s : RunState) : Prop where
  winner : s.winner = some id
  untold : s.claims = 0

theorem won_rely
    {id : Nat}
    {s s' : RunState}
    (hRely : Rely RunGuar id s s')
    (hWon : Won id s) :
    Won id s' := by
  apply rely_stable _ hRely hWon
  intro other now now' hOther hGuar hNow
  have hLoser : now.winner ≠ some other := by
    rw [hNow.winner]
    intro hSame
    exact hOther (Option.some.inj hSame).symm
  constructor
  · rcases hGuar.winner with hSame | hNone
    · rw [hSame, hNow.winner]
    · rw [hNow.winner] at hNone
      contradiction
  · rcases hGuar.told with hSame | hTold
    · rw [hSame, hNow.untold]
    · exact absurd hTold hLoser

theorem claims_answer
    (s : RunState)
    (request : Nat)
    (answer : Except ApiError RunAnswer) :
    (s.answer request answer).claims =
      s.claims + if isClaim answer then 1 else 0 := by
  simp [RunState.claims, RunState.answer, List.countP_append,
    List.countP_singleton]

theorem runInv_initial (clock : Int) :
    RunInv (RunState.initial clock) where
  past := by
    intro request hWinner
    exact absurd hWinner (by simp [RunState.initial])
  unclaimed := fun _ => rfl
  once := Nat.zero_le 1
  severity := by
    intro row hRow
    exact absurd hRow (by simp [RunState.initial])

--------------------
-- Rules for the Steps
--------------------

variable {α : Type} {id : Nat}

theorem valid_get
    {s : RunState}
    {f : RunState → α}
    {next : α → RunThread}
    (hNext :
      ∀ now, RunInv now → ValidRun id now (next (f now))) :
    ValidRun id s (get f next) := by
  unfold get
  apply valid_atomic
  intro now _ hInv _
  have hGuar : RunGuar id now now :=
    ⟨storedMove_refl _, Or.inl rfl, Or.inl rfl⟩
  exact ⟨hInv, hGuar, hNext now hInv⟩

/- The last step of a thread, outside the row. -/
theorem valid_quiet
    (s : RunState)
    (effect : RunState → RunState)
    (hRow : ∀ now, (effect now).row = now.row)
    (hWinner : ∀ now, (effect now).winner = now.winner)
    (hAnswers : ∀ now, (effect now).answers = now.answers) :
    ValidRun id s
      (atomic () (fun now => (effect now, ()))
        (fun _ => .done)) := by
  apply valid_atomic
  intro now _ hInv _
  have hClaims : (effect now).claims = now.claims := by
    unfold RunState.claims
    rw [hAnswers]
  have hAfter : RunInv (effect now) := by
    constructor
    · rw [hWinner, hRow]
      exact hInv.past
    · rw [hWinner, hClaims]
      exact hInv.unclaimed
    · rw [hClaims]
      exact hInv.once
    · rw [hRow]
      exact hInv.severity
  have hMove : StoredMove now.row (effect now).row := by
    rw [hRow]
    exact storedMove_refl _
  have hGuar : RunGuar id now (effect now) :=
    ⟨hMove, Or.inl (hWinner now), Or.inl hClaims⟩
  exact ⟨hAfter, hGuar, Valid.done _⟩

/- A request that does not say it won may always answer. -/
theorem valid_finish
    {s : RunState}
    {request : Nat}
    {answer : RunState → Except ApiError RunAnswer}
    (hPlain : ∀ now, isClaim (answer now) = false) :
    ValidRun id s (finish request answer) := by
  unfold finish
  apply valid_atomic
  intro now _ hInv _
  have hClaims :
      (now.answer request (answer now)).claims =
        now.claims := by
    rw [claims_answer, hPlain]
    rfl
  have hAfter : RunInv (now.answer request (answer now)) :=
    { past := hInv.past
      unclaimed := fun hNone =>
        hClaims.trans (hInv.unclaimed hNone)
      once := by rw [hClaims]; exact hInv.once
      severity := hInv.severity }
  have hGuar :
      RunGuar id now (now.answer request (answer now)) :=
    ⟨storedMove_refl _, Or.inl rfl, Or.inl hClaims⟩
  exact ⟨hAfter, hGuar, Valid.done _⟩

/- The winner may answer, whatever it says. -/
theorem valid_finish_won
    {s : RunState}
    {request : Nat}
    {answer : RunState → Except ApiError RunAnswer}
    (hWon : Won id s) :
    ValidRun id s (finish request answer) := by
  unfold finish
  apply valid_atomic
  intro now hRely hInv _
  have hNow : Won id now := won_rely hRely hWon
  have hOnce :
      (now.answer request (answer now)).claims ≤ 1 := by
    rw [claims_answer, hNow.untold]
    split <;> decide
  have hAfter : RunInv (now.answer request (answer now)) :=
    { past := hInv.past
      unclaimed := by
        intro hNone
        have hNone' : now.winner = none := hNone
        rw [hNow.winner] at hNone'
        contradiction
      once := hOnce
      severity := hInv.severity }
  have hGuar :
      RunGuar id now (now.answer request (answer now)) :=
    ⟨storedMove_refl _, Or.inl rfl, Or.inr hNow.winner⟩
  exact ⟨hAfter, hGuar, Valid.done _⟩

theorem updateWhere_cases
    (keeps : SentinelRunRow → Bool)
    (set : SentinelRunRow → SentinelRunRow)
    (s : RunState) :
    updateWhere keeps set s = (s, 0) ∨
      ∃ row, s.row = some row ∧ keeps row = true ∧
        updateWhere keeps set s =
          ({ s with row := some (set row) }, 1) := by
  unfold updateWhere
  cases hRow : s.row with
  | none => exact Or.inl rfl
  | some row =>
      by_cases hKeeps : keeps row = true
      · right
        exact ⟨row, rfl, hKeeps, if_pos hKeeps⟩
      · left
        exact if_neg hKeeps

/- What an `UPDATE` of the row has to respect. -/
structure UpdateOk
    (keeps : SentinelRunRow → Bool)
    (set : SentinelRunRow → SentinelRunRow) : Prop where
  moves :
    ∀ row, keeps row = true →
      row.outcome.mayBecome (set row).outcome = true
  severity :
    ∀ row, keeps row = true → SeverityFits row →
      SeverityFits (set row)

/- No move leads back to pending. -/
theorem ne_pending_of_mayBecome
    {outcome outcome' : Outcome}
    (hMoves : outcome.mayBecome outcome' = true) :
    outcome' ≠ .pending := by
  rintro rfl
  revert hMoves
  cases outcome <;> decide

/- The row is changed and nothing else. -/
theorem runInv_update
    {keeps : SentinelRunRow → Bool}
    {set : SentinelRunRow → SentinelRunRow}
    (hUpdate : UpdateOk keeps set)
    {s : RunState}
    {row : SentinelRunRow}
    (hInv : RunInv s)
    (hRow : s.row = some row)
    (hKeeps : keeps row = true) :
    RunInv { s with row := some (set row) } where
  past := by
    intro request _
    exact ⟨set row, rfl,
      ne_pending_of_mayBecome (hUpdate.moves row hKeeps)⟩
  unclaimed := hInv.unclaimed
  once := hInv.once
  severity := by
    intro row' hRow'
    rw [← Option.some.inj hRow']
    exact hUpdate.severity row hKeeps (hInv.severity row hRow)

theorem storedMove_update
    {keeps : SentinelRunRow → Bool}
    {set : SentinelRunRow → SentinelRunRow}
    (hUpdate : UpdateOk keeps set)
    {s : RunState}
    {row : SentinelRunRow}
    (hRow : s.row = some row)
    (hKeeps : keeps row = true) :
    StoredMove s.row (some (set row)) := by
  rw [hRow]
  exact Or.inr (hUpdate.moves row hKeeps)

theorem valid_update
    {keeps : SentinelRunRow → Bool}
    {set : SentinelRunRow → SentinelRunRow}
    {s : RunState}
    {next : Nat → RunThread}
    (hUpdate : UpdateOk keeps set)
    (hNext :
      ∀ now affected, ValidRun id now (next affected)) :
    ValidRun id s
      (atomic () (updateWhere keeps set) next) := by
  apply valid_atomic
  intro now _ hInv _
  rcases updateWhere_cases keeps set now with
    hSame | ⟨row, hRow, hKeeps, hSet⟩
  · rw [hSame]
    have hGuar : RunGuar id now now :=
      ⟨storedMove_refl _, Or.inl rfl, Or.inl rfl⟩
    exact ⟨hInv, hGuar, hNext now 0⟩
  · rw [hSet]
    have hGuar :
        RunGuar id now { now with row := some (set row) } :=
      ⟨storedMove_update hUpdate hRow hKeeps, Or.inl rfl,
        Or.inl rfl⟩
    exact ⟨runInv_update hUpdate hInv hRow hKeeps, hGuar,
      hNext _ 1⟩

--------------------
-- The Threads
--------------------

variable {id : Nat}

theorem valid_insertRun
    (run : NewRun)
    (s : RunState) :
    ValidRun id s (insertRun run) := by
  unfold insertRun readClock
  apply valid_get
  intro started _
  apply valid_atomic
  intro now _ hInv _
  cases hRow : now.row with
  | some row =>
      have hSame :
          commitRow (run.row started.clock) now = now := by
        simp [commitRow, hRow]
      have hGuar : RunGuar id now now :=
        ⟨storedMove_refl _, Or.inl rfl, Or.inl rfl⟩
      simp only [hSame]
      exact ⟨hInv, hGuar, Valid.done _⟩
  | none =>
      have hSet :
          commitRow (run.row started.clock) now =
            { now with
              row := some (run.row started.clock) } := by
        simp [commitRow, hRow]
      have hNoWinner : now.winner = none := by
        cases hWinner : now.winner with
        | none => rfl
        | some request =>
            rcases hInv.past request hWinner with ⟨row, h, _⟩
            rw [hRow] at h
            contradiction
      have hAfter :
          RunInv
            { now with row := some (run.row started.clock) } :=
        { past := by
            intro request hWinner
            have hWinner' : now.winner = some request :=
              hWinner
            rw [hNoWinner] at hWinner'
            contradiction
          unclaimed := hInv.unclaimed
          once := hInv.once
          severity := by
            intro row hNew
            rw [← Option.some.inj hNew]
            simp [SeverityFits, NewRun.row] }
      have hMove :
          StoredMove now.row
            (some (run.row started.clock)) := by
        rw [hRow]
        rfl
      have hGuar :
          RunGuar id now
            { now with row := some (run.row started.clock) } :=
        ⟨hMove, Or.inl rfl, Or.inl rfl⟩
      simp only [hSet]
      exact ⟨hAfter, hGuar, Valid.done _⟩

theorem updateOk_claim
    (started : Int) :
    UpdateOk (fun row => row.outcome == .pending)
      (fun row =>
        { row with
          outcome := .running
          startedAt := some started
          updatedAt := started }) := by
  constructor
  · intro row hKeeps
    rw [eq_of_beq hKeeps]
    rfl
  · intro row hKeeps hFits
    unfold SeverityFits at hFits ⊢
    rw [eq_of_beq hKeeps] at hFits
    simp only [reduceCtorEq, iff_false] at hFits ⊢
    exact hFits

/- A pending row has no winner yet. -/
theorem winner_of_pending
    {s : RunState}
    {row : SentinelRunRow}
    (hInv : RunInv s)
    (hRow : s.row = some row)
    (hPending : row.outcome = .pending) :
    s.winner = none := by
  cases hWinner : s.winner with
  | none => rfl
  | some other =>
      rcases hInv.past other hWinner with
        ⟨row', hRow', hPast⟩
      rw [hRow] at hRow'
      rw [← Option.some.inj hRow'] at hPast
      exact absurd hPending hPast

/- Losers of the claim say so, and the winner has won. -/
theorem valid_claimRun
    (request : Nat)
    (started : Int)
    (s : RunState) :
    ValidRun request s
      (atomic () (claimRun request started) (fun won =>
        finish request (reload false (some won)))) := by
  apply valid_atomic
  intro now _ hInv _
  have hUpdate := updateOk_claim started
  unfold claimRun
  rcases updateWhere_cases (fun row => row.outcome == .pending)
      (fun row : SentinelRunRow =>
        { row with
          outcome := .running
          startedAt := some started
          updatedAt := started }) now with
    hSame | ⟨row, hRow, hKeeps, hSet⟩
  · rw [hSame]
    have hGuar : RunGuar request now now :=
      ⟨storedMove_refl _, Or.inl rfl, Or.inl rfl⟩
    refine ⟨hInv, hGuar, ?_⟩
    apply valid_finish
    intro later
    unfold reload
    split <;> rfl
  · rw [hSet]
    have hNoWinner : now.winner = none :=
      winner_of_pending hInv hRow (eq_of_beq hKeeps)
    have hClaims := hInv.unclaimed hNoWinner
    have hInv' := runInv_update hUpdate hInv hRow hKeeps
    have hAfter :
        RunInv
          { now with
            row :=
              some
                { row with
                  outcome := .running
                  startedAt := some started
                  updatedAt := started }
            winner := some request } :=
      { past := fun _ _ => ⟨_, rfl, by simp⟩
        unclaimed := fun hNone => by simp at hNone
        once := hInv'.once
        severity := hInv'.severity }
    have hMove := storedMove_update hUpdate hRow hKeeps
    exact ⟨hAfter, ⟨hMove, Or.inr hNoWinner, Or.inl rfl⟩,
      valid_finish_won ⟨rfl, hClaims⟩⟩

theorem valid_postRunStart
    (agent : AgentPrincipal)
    (request : Nat)
    (s : RunState) :
    ValidRun request s (postRunStart agent request) := by
  unfold postRunStart
  apply valid_get
  intro seen _
  cases agentVisibleRun agent seen with
  | error err =>
      apply valid_finish
      intro now
      rfl
  | ok row =>
      dsimp only
      split
      · apply valid_finish
        intro now
        rfl
      · unfold readClock
        apply valid_get
        intro later _
        exact valid_claimRun request _ later

/- The reported severity is stored with an incident only. -/
theorem severityFits_completeRow
    {body : CompleteBody}
    {outcome : Outcome}
    (hCheck : body.check = .ok outcome)
    (incidentId : Option Int)
    (count now : Int)
    (row : SentinelRunRow) :
    SeverityFits
      (completeRow body outcome incidentId count now row) := by
  unfold CompleteBody.check at hCheck
  split at hCheck
  · contradiction
  · split at hCheck
    · contradiction
    · rename_i hNamed
      rw [Except.ok.inj hCheck] at hNamed
      unfold SeverityFits completeRow
      by_cases hIncident : outcome = .incident
      · subst hIncident
        cases hSeverity : body.severity with
        | none => simp [hSeverity, severityNamed] at hNamed
        | some severity => simp
      · simp [hIncident]

theorem isTerminal_of_check
    {body : CompleteBody}
    {outcome : Outcome}
    (hCheck : body.check = .ok outcome) :
    outcome.isTerminal = true := by
  unfold CompleteBody.check at hCheck
  split at hCheck
  · contradiction
  · rename_i reported hReported
    split at hCheck
    · contradiction
    · rw [← Except.ok.inj hCheck]
      exact isTerminal_of_terminal hReported

theorem updateOk_completeRow
    {body : CompleteBody}
    {outcome : Outcome}
    (hCheck : body.check = .ok outcome)
    (incidentId : Option Int)
    (count now : Int) :
    UpdateOk (mayComplete outcome)
      (completeRow body outcome incidentId count now) where
  moves := fun _ hKeeps =>
    mayBecome_of_mayComplete (isTerminal_of_check hCheck) hKeeps
  severity := fun row _ _ =>
    severityFits_completeRow hCheck incidentId count now row

theorem valid_storeCompletion
    {body : CompleteBody}
    {outcome : Outcome}
    (hCheck : body.check = .ok outcome)
    (owned : Int → Bool)
    (request : Nat)
    (row : SentinelRunRow)
    (s : RunState) :
    ValidRun id s
      (storeCompletion body outcome owned request row) := by
  unfold storeCompletion
  split
  · apply valid_finish
    intro now
    rfl
  · split
    · apply valid_finish
      intro now
      rfl
    · unfold readClock
      apply valid_get
      intro later _
      split
      · apply valid_finish
        intro now
        rfl
      · apply valid_update (updateOk_completeRow hCheck _ _ _)
        intro after _
        apply valid_finish
        intro now
        unfold reload
        split <;> rfl

theorem valid_postRunComplete
    (agent : AgentPrincipal)
    (body : CompleteBody)
    (owned : Int → Bool)
    (request : Nat)
    (s : RunState) :
    ValidRun id s
      (postRunComplete agent body owned request) := by
  unfold postRunComplete
  cases hCheck : body.check with
  | error err =>
      apply valid_finish
      intro now
      rfl
  | ok outcome =>
      apply valid_get
      intro seen _
      cases agentVisibleRun agent seen with
      | error err =>
          apply valid_finish
          intro now
          rfl
      | ok row =>
          exact valid_storeCompletion hCheck owned request row
            seen

/- A stamp only goes on a row that is not terminal. -/
theorem updateOk_stampError
    {keeps : SentinelRunRow → Bool}
    (hKeeps :
      ∀ row, keeps row = true →
        row.outcome = .pending ∨ row.outcome = .running)
    (summary : String)
    (now : Int) :
    UpdateOk keeps (stampError summary now) := by
  constructor
  · intro row hRow
    rcases hKeeps row hRow with hOutcome | hOutcome
    · rw [hOutcome]
      rfl
    · rw [hOutcome]
      rfl
  · intro row hRow hFits
    unfold SeverityFits at hFits ⊢
    rcases hKeeps row hRow with hOutcome | hOutcome
    · simpa [stampError, hOutcome] using hFits
    · simpa [stampError, hOutcome] using hFits

theorem valid_reapSelected
    (now : Int)
    (ids : List String)
    {next : Nat → RunThread}
    (hNext : ∀ s reaped, ValidRun id s (next reaped))
    (s : RunState) :
    ValidRun id s (reapSelected now ids next) := by
  unfold reapSelected
  split
  · exact hNext s 0
  · apply valid_update _ (fun after n => hNext after n)
    apply updateOk_stampError
    intro row hRow
    right
    simp only [Bool.and_eq_true, beq_iff_eq] at hRow
    exact hRow.2

theorem valid_reapStrandedRuns
    (s : RunState) :
    ValidRun id s reapStrandedRuns := by
  unfold reapStrandedRuns readClock
  apply valid_get
  intro started _
  apply valid_get
  intro selected _
  apply valid_reapSelected
  intro stamped reaped
  apply valid_get
  intro counted _
  apply valid_update
  · apply updateOk_stampError
    intro row hRow
    left
    simp only [pendingBefore, Bool.and_eq_true,
      beq_iff_eq] at hRow
    exact hRow.1
  · intro last abandoned
    exact valid_quiet last
      (fun now =>
        { now with
          sweeps :=
            now.sweeps ++ [⟨_, _, _, abandoned⟩] })
      (fun _ => rfl) (fun _ => rfl) (fun _ => rfl)

theorem valid_startRunTask
    (task : RunTask)
    (id : Nat)
    (s : RunState) :
    ValidRun id s (startRunTask task id) := by
  cases task with
  | pass span =>
      exact valid_quiet s
        (fun now => { now with clock := now.clock + span })
        (fun _ => rfl) (fun _ => rfl) (fun _ => rfl)
  | insert run => exact valid_insertRun run s
  | start agent => exact valid_postRunStart agent id s
  | complete agent body owned =>
      exact valid_postRunComplete agent body owned id s
  | reap => exact valid_reapStrandedRuns s

--------------------
-- The Whole Life of a Run
--------------------

theorem runSound
    (clock : Int)
    (events : List (Event RunTask)) :
    Sound RunInv RunGuar (fun _ _ => True)
      (Run.exec (step startRunTask)
        (initial (RunState.initial clock)) events) :=
  sound_exec
    (fun task id s _ => valid_startRunTask task id s)
    (runInv_initial clock)
    (meets_of_forall (fun _ _ => trivial) _ events)

/- Each step of a run moves the outcome one way. -/
theorem storedMove_event
    (clock : Int)
    (past : List (Event RunTask))
    (event : Event RunTask) :
    StoredMove (afterEvents clock past).row
      (afterEvents clock (past ++ [event])).row := by
  unfold afterEvents
  rw [Run.exec_append]
  have hSound := runSound clock past
  have hMeets :
      Run.Meets (step startRunTask) (EventOk (fun _ _ => True))
        (Run.exec (step startRunTask)
          (initial (RunState.initial clock)) past) [event] :=
    meets_of_forall (fun _ _ => trivial) _ [event]
  rw [Run.exec_cons, Run.exec_nil]
  rcases guar_step event hSound hMeets.1 with
    hSame | ⟨id, hGuar⟩
  · rw [hSame]
    exact storedMove_refl _
  · exact hGuar.moves

theorem storedAs_later
    (clock : Int)
    {outcome : Outcome}
    (hFinal : outcome.isFinal)
    (past : List (Event RunTask))
    (hStored : StoredAs outcome (afterEvents clock past))
    (later : List (Event RunTask)) :
    StoredAs outcome (afterEvents clock (past ++ later)) := by
  induction later generalizing past with
  | nil => simpa using hStored
  | cons event later ih =>
      have hMove := storedMove_event clock past event
      have hNext := storedAs_move hFinal hMove hStored
      simpa using ih (past ++ [event]) hNext

/-
  Over the whole life of a run: every step moves the stored
  outcome one way, a real outcome stays, at most one start
  request is told it won, and a severity is stored exactly
  with an incident.
-/
theorem run_lifecycle
    (clock : Int)
    (past : List (Event RunTask)) :
    (∀ event,
      StoredMove (afterEvents clock past).row
        (afterEvents clock (past ++ [event])).row) ∧
    (∀ outcome, outcome.isFinal →
      StoredAs outcome (afterEvents clock past) →
        ∀ later,
          StoredAs outcome
            (afterEvents clock (past ++ later))) ∧
    (afterEvents clock past).claims ≤ 1 ∧
    (∀ row, (afterEvents clock past).row = some row →
      SeverityFits row) := by
  have hInv := (runSound clock past).inv
  refine ⟨?_, ?_, hInv.once, hInv.severity⟩
  · intro event
    exact storedMove_event clock past event
  · intro outcome hFinal hStored later
    exact storedAs_later clock hFinal past hStored later

/- The first-party agent. -/
def sharedAgent : AgentPrincipal where
  orgId := none
  isScoped := false

def doorRun : NewRun where
  id := "run_1"
  orgId := "org_1"
  triggerType := "motion"
  cameraId := some "cam_1"
  manualPrompt := none

def doorReport : CompleteBody where
  outcome := "incident"
  severity := some "high"
  incidentId := some 7
  summary := "Door forced."
  toolCallCount := 3
  toolTrace := none

/-
  Two starts race for a run, both having read it pending,
  and the winner reports an incident.
-/
def contestedRun : List (Event RunTask) :=
  [.spawn (.insert doorRun), .run 0, .run 0,
    .spawn (.start sharedAgent), .spawn (.start sharedAgent),
    .run 1, .run 2, .run 1, .run 2, .run 2, .run 1, .run 1,
    .run 2,
    .spawn (.complete sharedAgent doorReport (fun _ => true)),
    .run 3, .run 3, .run 3, .run 3]

/- The winner is told so once, and a sweep changes nothing. -/
theorem run_lifecycle_contested :
    (afterEvents 0 contestedRun).claims = 1 ∧
      StoredAs .incident
        (afterEvents 0
          (contestedRun ++
            [.spawn .reap, .run 4, .run 4, .run 4, .run 4,
              .run 4])) := by
  have hStored :
      StoredAs .incident (afterEvents 0 contestedRun) :=
    ⟨_, rfl, rfl⟩
  have hLife := run_lifecycle 0 contestedRun
  exact ⟨rfl, hLife.2.1 .incident (Or.inl rfl) hStored _⟩

end Sentinel

end SentinelCommand
