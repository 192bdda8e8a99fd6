import SentinelCommand.Email.Attempts

/-
  The outbox when nothing is cut off and every write succeeds:
  how the status of a row moves, that an ended row is left
  alone, and that its attempts and its log entry agree with
  what was done to it.

  Main declarations:
    * `Email.CleanEvent`, `Email.cleanAfter`
    * `Email.StatusMove`
    * `Email.outbox_discipline`
-/

--------------------
-- Runs Without Faults
--------------------

namespace SentinelCommand

namespace Email

open Privacy (SuppressionRow)

/- What happens when no tick is cut off and writes succeed. -/
inductive CleanEvent where
  | advance (queryOk : Bool) (result : SendResult)
  | enqueue (new : NewEmail)
  | suppress (rows : List SuppressionRow)
  | pass (span : Nat)
  deriving DecidableEq, Repr

def CleanEvent.event : CleanEvent → WorkerEvent
| .advance queryOk result => .advance ⟨queryOk, result, true⟩
| .enqueue new => .enqueue new
| .suppress rows => .suppress rows
| .pass span => .pass span

def stepClean
    (config : WorkerConfig)
    (toLowercase : String → String)
    (s : Worker)
    (event : CleanEvent) : Worker :=
  stepWorker config toLowercase s event.event

/- The worker after events without faults. -/
def cleanAfter
    (config : WorkerConfig)
    (toLowercase : String → String)
    (outbox : Outbox)
    (suppression : List SuppressionRow)
    (clock : Int)
    (events : List CleanEvent) : Worker :=
  Run.exec (stepClean config toLowercase)
    (Worker.start outbox suppression clock) events

/- How the status of a row moves in one step. -/
inductive StatusMove : Status → Status → Prop where
  | stay (status : Status) : StatusMove status status
  | claim : StatusMove .pending .sending
  | settle
      (next : Status)
      (hNext : next ≠ .sending) :
      StatusMove .sending next

/- What a row says of how it ended. -/
def OutboxRow.outcome (row : OutboxRow) : Processed where
  status := row.status
  messageId :=
    if row.status = .sent then row.resendMessageId else none
  error := row.error

def EmailLog.outcome (entry : EmailLog) : Processed where
  status := entry.status
  messageId := entry.resendMessageId
  error := entry.error

/- The outcomes logged of one row. -/
def loggedOutcomes
    (log : List EmailLog)
    (id : Nat) : List Processed :=
  (log.filter (fun entry => entry.about == id)).map
    EmailLog.outcome

def attemptsOf (row : Option OutboxRow) : Nat :=
  row.elim 0 OutboxRow.attempts

def endedRow (row : Option OutboxRow) : Bool :=
  row.any (fun row => row.status.isTerminal)

/- A row that ended since it was `first` has one outcome. -/
def settledOutcomes
    (first now : Option OutboxRow) : List Processed :=
  if endedRow first then
    []
  else
    (now.filter (fun row => row.status.isTerminal)).toList.map
      OutboxRow.outcome

/- The row between its outcome and its log row. -/
def Phase.inFlight : Phase → Option Nat
| .processed row _ _ _ => some row.id
| .finalized row _ _ _ => some row.id
| _ => none

--------------------
-- Outcomes
--------------------

/- The outcomes that `process_row` has. -/
inductive Settles : Processed → Prop where
  | suppressed
      (reason : String) :
      Settles (suppressedOutcome reason)
  | answered
      (result : SendResult) :
      Settles (sendOutcome result)

theorem status_finalColumns
    (config : WorkerConfig)
    (held : OutboxRow)
    (outcome : Processed)
    (now : Int)
    (row : OutboxRow) :
    (finalColumns config held outcome now row).status =
      endStatus config held outcome := by
  unfold finalColumns
  split
  · rename_i hSent
    unfold endStatus
    rw [hSent]
  · rfl

theorem attempts_finalColumns
    (config : WorkerConfig)
    (held : OutboxRow)
    (outcome : Processed)
    (now : Int)
    (row : OutboxRow) :
    (finalColumns config held outcome now row).attempts =
      held.attempts + 1 := by
  unfold finalColumns
  split <;> rfl

/- No outcome leaves a row in `sending`. -/
theorem endStatus_ne_sending
    (config : WorkerConfig)
    (held : OutboxRow)
    (outcome : Processed) :
    endStatus config held outcome ≠ .sending := by
  unfold endStatus
  split
  · exact Status.noConfusion
  · exact Status.noConfusion
  · split
    · exact Status.noConfusion
    · exact Status.noConfusion

/- A failure below the cap is the one outcome not logged. -/
theorem retried_iff_open
    {outcome : Processed}
    (config : WorkerConfig)
    (held : OutboxRow)
    (hSettles : Settles outcome) :
    (outcome.status == .failed &&
        endStatus config held outcome == .pending) =
      !(endStatus config held outcome).isTerminal := by
  cases hSettles with
  | suppressed reason => rfl
  | answered result =>
      unfold sendOutcome
      split
      · rfl
      · split
        · rfl
        · unfold endStatus
          dsimp only
          split <;> rfl

/- An outcome that ends a row can be read from the row. -/
theorem outcome_finalColumns
    {config : WorkerConfig}
    {held : OutboxRow}
    {outcome : Processed}
    (now : Int)
    (row : OutboxRow)
    (hSettles : Settles outcome)
    (hEnded :
      (endStatus config held outcome).isTerminal = true) :
    (finalColumns config held outcome now row).outcome =
      outcome := by
  cases hSettles with
  | suppressed reason => rfl
  | answered result =>
      unfold sendOutcome at hEnded ⊢
      split at hEnded
      · rename_i hSkipped
        rw [if_pos hSkipped]
        rfl
      · rename_i hSkipped
        rw [if_neg hSkipped]
        split at hEnded
        · rename_i hOk
          rw [if_pos hOk]
          rfl
        · rename_i hOk
          rw [if_neg hOk]
          unfold endStatus at hEnded
          dsimp only at hEnded
          unfold finalColumns endStatus
          dsimp only
          split at hEnded
          · rename_i hCap
            rw [if_pos hCap]
            rfl
          · contradiction

theorem loggedOutcomes_append
    (log later : List EmailLog)
    (id : Nat) :
    loggedOutcomes (log ++ later) id =
      loggedOutcomes log id ++ loggedOutcomes later id := by
  unfold loggedOutcomes
  rw [List.filter_append, List.map_append]

/- What `write_log` adds about a row. -/
theorem loggedOutcomes_writeLog
    {config : WorkerConfig}
    {row : OutboxRow}
    {outcome : Processed}
    (log : List EmailLog)
    (now : Int)
    (id : Nat)
    (hSettles : Settles outcome) :
    loggedOutcomes
        (writeLog log row outcome
          (endStatus config row outcome) true now) id =
      loggedOutcomes log id ++
        if row.id = id ∧
            (endStatus config row outcome).isTerminal = true then
          [outcome]
        else
          [] := by
  unfold writeLog
  rw [retried_iff_open config row hSettles]
  cases hEnded :
      (endStatus config row outcome).isTerminal with
  | false =>
      simp only [Bool.not_false, if_true, Bool.false_eq_true,
        and_false, if_false, List.append_nil]
  | true =>
      simp only [Bool.not_true, Bool.false_eq_true, if_false,
        if_true, and_true]
      rw [loggedOutcomes_append]
      by_cases hSame : row.id = id
      · rw [if_pos hSame]
        unfold loggedOutcomes
        rw [List.filter_singleton]
        simp only [beq_iff_eq.mpr hSame]
        rfl
      · rw [if_neg hSame]
        unfold loggedOutcomes
        rw [List.filter_singleton]
        simp only [beq_false_of_ne hSame]
        rfl

--------------------
-- The Ledger
--------------------

/- The row that is processed, with no outcome stored. -/
def Phase.uncounted : Phase → List Nat
| .processed row _ _ _ => [row.id]
| _ => []

/- The outcome of a row that is stored and not logged. -/
def Phase.unlogged : Phase → Nat → List Processed
| .finalized row _ outcome ended, id =>
    if row.id = id ∧ ended.isTerminal = true then
      [outcome]
    else
      []
| _, _ => []

/- An outcome in memory is one that `process_row` has. -/
def Phase.Sound (config : WorkerConfig) : Phase → Prop
| .processed _ _ outcome _ => Settles outcome
| .finalized row _ outcome ended =>
    Settles outcome ∧ ended = endStatus config row outcome
| _ => True

/- Status, attempts and log of every row, since `first`. -/
structure Ledger
    (config : WorkerConfig)
    (first : Outbox)
    (s : Worker) : Prop where
  held : Held s
  sound : s.phase.Sound config
  kept :
    ∀ id row, first.find id = some row →
      row.status.isTerminal = true →
        s.outbox.find id = some row
  processed :
    ∀ id,
      s.processed.count id =
        s.stored.count id + s.phase.uncounted.count id
  attempts :
    ∀ id,
      attemptsOf (s.outbox.find id) =
        attemptsOf (first.find id) + s.stored.count id
  logged :
    ∀ id,
      loggedOutcomes s.log id ++ s.phase.unlogged id =
        settledOutcomes (first.find id) (s.outbox.find id)
  bounded :
    ∀ id row, s.outbox.find id = some row →
      (∀ old, first.find id = some old →
        RowBounded config old.attempts old) →
          RowBounded config row.attempts row

theorem settledOutcomes_open
    {first : Option OutboxRow}
    {row : OutboxRow}
    (hOpen : row.status.isTerminal = false) :
    settledOutcomes first (some row) = [] := by
  unfold settledOutcomes
  rw [Option.filter_some, hOpen]
  exact ite_self []

theorem settledOutcomes_ended
    {first : Option OutboxRow}
    {row : OutboxRow}
    (hFirst : endedRow first = false)
    (hEnded : row.status.isTerminal = true) :
    settledOutcomes first (some row) = [row.outcome] := by
  unfold settledOutcomes
  rw [hFirst, Option.filter_some, if_pos hEnded]
  rfl

/- What the ledger reads of a row, if no outcome is stored. -/
structure Quiet (row row' : Option OutboxRow) : Prop where
  attempts : attemptsOf row' = attemptsOf row
  settled :
    ∀ first,
      settledOutcomes first row' = settledOutcomes first row

theorem quiet_of_open
    {row row' : OutboxRow}
    (hOpen : row.status.isTerminal = false)
    (hOpen' : row'.status.isTerminal = false)
    (hAttempts : row'.attempts = row.attempts) :
    Quiet (some row) (some row') := by
  constructor
  · exact hAttempts
  · intro first
    rw [settledOutcomes_open hOpen, settledOutcomes_open hOpen']

theorem quiet_stepWorker
    {config : WorkerConfig}
    {toLowercase : String → String}
    {s : Worker}
    (event : WorkerEvent)
    (hHeld : Held s)
    (hStored :
      (stepWorker config toLowercase s event).stored = s.stored)
    (id : Nat) :
    Quiet (s.outbox.find id)
      ((stepWorker config toLowercase s event).outbox.find
        id) := by
  cases hFind' :
      (stepWorker config toLowercase s event).outbox.find id with
  | none =>
      rw [find_none_before event hHeld hFind']
      exact ⟨rfl, fun _ => rfl⟩
  | some row' =>
      rcases find_some_before event hHeld hFind' with
        ⟨row, hFind, hRow⟩ | ⟨hNone, new, _, rfl⟩
      · rw [hFind]
        cases hRow with
        | same => exact ⟨rfl, fun _ => rfl⟩
        | reclaim hSending =>
            have hOpen : row.status.isTerminal = false := by
              rw [hSending]
              rfl
            exact quiet_of_open hOpen rfl rfl
        | claim hPending =>
            have hOpen : row.status.isTerminal = false := by
              rw [hPending]
              rfl
            exact quiet_of_open hOpen rfl rfl
        | store _ _ _ _ hMore =>
            rw [hStored] at hMore
            have hLength := congrArg List.length hMore
            rw [List.length_append, List.length_singleton]
              at hLength
            omega
      · rw [hNone]
        constructor
        · rfl
        · intro first
          rw [settledOutcomes_open rfl]
          exact (ite_self []).symm

/- Storing an outcome leaves what is found elsewhere. -/
theorem find_storeRow_ne
    {config : WorkerConfig}
    {s : Worker}
    {held : OutboxRow}
    {rest : List OutboxRow}
    {outcome : Processed}
    {id : Nat}
    (hOther : id ≠ held.id) :
    (storeRow config s held rest outcome).outbox.find id =
      s.outbox.find id := by
  cases hFind : s.outbox.find id with
  | none =>
      unfold storeRow finalizeRow
      dsimp only
      rw [find_update, hFind]
      rfl
  | some row => exact find_storeRow_other hOther hFind

--------------------
-- One Step of the Ledger
--------------------

theorem sound_stepWorker
    {config : WorkerConfig}
    {toLowercase : String → String}
    {s : Worker}
    (event : CleanEvent)
    (hSound : s.phase.Sound config) :
    (stepWorker config toLowercase s
      event.event).phase.Sound config := by
  cases event with
  | enqueue new => exact hSound
  | suppress rows => exact hSound
  | pass span => exact hSound
  | advance queryOk result =>
      simp only [CleanEvent.event, stepWorker]
      unfold runOneTick
      cases hPhase : s.phase with
      | idle => exact trivial
      | reclaimed =>
          dsimp only
          unfold fetchBatch
          dsimp only
          split
          · exact trivial
          · exact trivial
      | fetched batch => exact trivial
      | draining todo =>
          cases todo with
          | nil => exact trivial
          | cons row rest =>
              dsimp only
              unfold beginRow
              split
              · exact Settles.suppressed _
              · exact trivial
      | mailing row rest => exact Settles.answered result
      | processed row rest outcome mailed =>
          rw [hPhase] at hSound
          exact ⟨hSound, rfl⟩
      | finalized row rest outcome ended => exact trivial

theorem processed_stepWorker
    {config : WorkerConfig}
    {toLowercase : String → String}
    {s : Worker}
    (event : CleanEvent)
    (id : Nat)
    (hCount :
      s.processed.count id =
        s.stored.count id + s.phase.uncounted.count id) :
    (stepWorker config toLowercase s
        event.event).processed.count id =
      (stepWorker config toLowercase s
          event.event).stored.count id +
        (stepWorker config toLowercase s
          event.event).phase.uncounted.count id := by
  cases event with
  | enqueue new => exact hCount
  | suppress rows => exact hCount
  | pass span => exact hCount
  | advance queryOk result =>
      simp only [CleanEvent.event, stepWorker]
      unfold runOneTick
      cases hPhase : s.phase with
      | idle =>
          rw [hPhase] at hCount
          exact hCount
      | reclaimed =>
          rw [hPhase] at hCount
          have hNone :
              (fetchBatch config s).phase.uncounted = [] := by
            unfold fetchBatch
            dsimp only
            split <;> rfl
          dsimp only
          rw [hNone]
          exact hCount
      | fetched batch =>
          rw [hPhase] at hCount
          exact hCount
      | draining todo =>
          rw [hPhase] at hCount
          cases todo with
          | nil => exact hCount
          | cons row rest =>
              dsimp only
              unfold beginRow
              split
              · simp only [Phase.uncounted, List.count_nil,
                  List.count_append] at hCount ⊢
                omega
              · exact hCount
      | mailing row rest =>
          rw [hPhase] at hCount
          simp only [endRow, Phase.uncounted, List.count_nil,
            List.count_append] at hCount ⊢
          omega
      | processed row rest outcome mailed =>
          rw [hPhase] at hCount
          simp only [storeRow, Phase.uncounted, List.count_nil,
            List.count_append] at hCount ⊢
          omega
      | finalized row rest outcome ended =>
          rw [hPhase] at hCount
          exact hCount

/- A step that stores nothing logs what was left to log. -/
theorem logged_stepWorker
    {config : WorkerConfig}
    {toLowercase : String → String}
    {s : Worker}
    (event : CleanEvent)
    (hSound : s.phase.Sound config)
    (hStored :
      (stepWorker config toLowercase s event.event).stored =
        s.stored)
    (id : Nat) :
    loggedOutcomes
        (stepWorker config toLowercase s event.event).log id ++
        (stepWorker config toLowercase s
          event.event).phase.unlogged id =
      loggedOutcomes s.log id ++ s.phase.unlogged id := by
  cases event with
  | enqueue new => rfl
  | suppress rows => rfl
  | pass span => rfl
  | advance queryOk result =>
      simp only [CleanEvent.event, stepWorker] at hStored ⊢
      unfold runOneTick at hStored ⊢
      cases hPhase : s.phase with
      | idle => rfl
      | reclaimed =>
          have hNone :
              (fetchBatch config s).phase.unlogged id = [] := by
            unfold fetchBatch
            dsimp only
            split <;> rfl
          dsimp only
          rw [hNone]
          rfl
      | fetched batch => rfl
      | draining todo =>
          cases todo with
          | nil => rfl
          | cons row rest =>
              dsimp only
              unfold beginRow
              split <;> rfl
      | mailing row rest => rfl
      | processed row rest outcome mailed =>
          rw [hPhase] at hStored
          have hLength := congrArg List.length hStored
          simp only [storeRow, List.length_append,
            List.length_singleton] at hLength
          omega
      | finalized row rest outcome ended =>
          rw [hPhase] at hSound
          rcases hSound with ⟨hSettles, rfl⟩
          simp only [logRow, Phase.unlogged, List.append_nil]
          exact loggedOutcomes_writeLog s.log s.clock id hSettles

/- What storing the outcome of a row adds to the ledger. -/
theorem logged_storeRow
    {config : WorkerConfig}
    {first : Outbox}
    {s : Worker}
    {held : OutboxRow}
    {rest : List OutboxRow}
    {outcome : Processed}
    {mailed : Bool}
    (hLedger : Ledger config first s)
    (hPhase : s.phase = .processed held rest outcome mailed)
    (id : Nat) :
    loggedOutcomes s.log id ++
        (storeRow config s held rest outcome).phase.unlogged
          id =
      settledOutcomes (first.find id)
        ((storeRow config s held rest outcome).outbox.find
          id) := by
  have hLogged := hLedger.logged id
  have hSettles := hLedger.sound
  rw [hPhase] at hLogged hSettles
  simp only [Phase.unlogged, List.append_nil] at hLogged
  by_cases hSame : id = held.id
  · subst hSame
    rcases found_of_processed hPhase hLedger.held with
      ⟨row, hFind, _, hSending⟩
    have hOpen : row.status.isTerminal = false := by
      rw [hSending]
      rfl
    rw [hFind, settledOutcomes_open hOpen] at hLogged
    rw [find_storeRow_same hFind, hLogged, List.nil_append]
    have hStatus :=
      status_finalColumns config held outcome s.clock row
    simp only [storeRow, finalizeRow, Phase.unlogged, true_and]
    split
    · rename_i hEnded
      have hFirst : endedRow (first.find held.id) = false := by
        cases hOld : first.find held.id with
        | none => rfl
        | some old =>
            cases hTerminal : old.status.isTerminal with
            | false => exact hTerminal
            | true =>
                have hKept :=
                  hLedger.kept held.id old hOld hTerminal
                rw [hFind] at hKept
                rw [Option.some.inj hKept, hTerminal] at hOpen
                contradiction
      rw [settledOutcomes_ended hFirst]
      · exact congrArg (fun settled => [settled])
          (outcome_finalColumns s.clock row hSettles
            hEnded).symm
      · rw [← hStatus] at hEnded
        exact hEnded
    · rename_i hOpen'
      rw [settledOutcomes_open]
      rw [← hStatus] at hOpen'
      exact Bool.eq_false_iff.mpr hOpen'
  · rw [find_storeRow_ne hSame, ← hLogged]
    simp only [storeRow, finalizeRow, Phase.unlogged]
    rw [if_neg (fun hBoth => hSame hBoth.1.symm),
      List.append_nil]

theorem attempts_storeRow
    {config : WorkerConfig}
    {first : Outbox}
    {s : Worker}
    {held : OutboxRow}
    {rest : List OutboxRow}
    {outcome : Processed}
    {mailed : Bool}
    (hLedger : Ledger config first s)
    (hPhase : s.phase = .processed held rest outcome mailed)
    (id : Nat) :
    attemptsOf
        ((storeRow config s held rest outcome).outbox.find
          id) =
      attemptsOf (first.find id) +
        (storeRow config s held rest outcome).stored.count
          id := by
  have hAttempts := hLedger.attempts id
  by_cases hSame : id = held.id
  · subst hSame
    rcases found_of_processed hPhase hLedger.held with
      ⟨row, hFind, hHeld, _⟩
    have hMore :=
      attempts_finalColumns config held outcome s.clock row
    rw [hFind] at hAttempts
    rw [find_storeRow_same hFind]
    simp only [attemptsOf, Option.elim_some, storeRow,
      List.count_append, List.count_singleton_self]
      at hAttempts ⊢
    rw [hMore]
    omega
  · have hOther : ¬ (held.id == id) = true := by
      rw [beq_iff_eq]
      exact Ne.symm hSame
    rw [find_storeRow_ne hSame, hAttempts]
    simp only [storeRow, List.count_append]
    rw [List.count_singleton, if_neg hOther, Nat.add_zero]

theorem rowBounded_finalColumns
    {config : WorkerConfig}
    {row held : OutboxRow}
    {outcome : Processed}
    {now : Int}
    (hSending : row.status = .sending)
    (hAttempts : row.attempts = held.attempts)
    (hBounded : RowBounded config row.attempts row) :
    RowBounded config
      (finalColumns config held outcome now row).attempts
      { finalColumns config held outcome now row with
        id := row.id } := by
  rw [attempts_finalColumns, ← hAttempts]
  exact rowBounded_store hSending hAttempts hBounded

theorem bounded_row_stepWorker
    {config : WorkerConfig}
    {toLowercase : String → String}
    {first : Outbox}
    {s : Worker}
    (event : WorkerEvent)
    (hLedger : Ledger config first s)
    (id : Nat)
    (row' : OutboxRow)
    (hFind' :
      (stepWorker config toLowercase s event).outbox.find id =
        some row')
    (hFirst :
      ∀ old, first.find id = some old →
        RowBounded config old.attempts old) :
    RowBounded config row'.attempts row' := by
  rcases find_some_before event hLedger.held hFind' with
    ⟨row, hFind, hRow⟩ | ⟨_, new, _, rfl⟩
  · have hBounded := hLedger.bounded id row hFind hFirst
    cases hRow with
    | same => exact hBounded
    | reclaim hSending =>
        have hOpen : row.status.isTerminal = false := by
          rw [hSending]
          rfl
        exact rowBounded_open hOpen rfl rfl hBounded
    | claim hPending =>
        have hOpen : row.status.isTerminal = false := by
          rw [hPending]
          rfl
        exact rowBounded_open hOpen rfl rfl hBounded
    | store hSending _ _ hAttempts =>
        exact rowBounded_finalColumns hSending hAttempts
          hBounded
  · exact Or.inl rfl

theorem ledger_stepClean
    {config : WorkerConfig}
    {toLowercase : String → String}
    {first : Outbox}
    (s : Worker)
    (event : CleanEvent)
    (hLedger : Ledger config first s) :
    Ledger config first
      (stepClean config toLowercase s event) where
  held := held_stepWorker s event.event hLedger.held
  sound := sound_stepWorker event hLedger.sound
  kept := fun id row hOld hTerminal =>
    find_terminal event.event hLedger.held
      (hLedger.kept id row hOld hTerminal) hTerminal
  processed := fun id =>
    processed_stepWorker event id (hLedger.processed id)
  attempts := by
    intro id
    unfold stepClean
    rcases stored_stepWorker config toLowercase s
      event.event with
      hStored | ⟨held, rest, outcome, mailed, hPhase, hStep⟩
    · have hQuiet :=
        quiet_stepWorker event.event hLedger.held hStored id
      rw [hQuiet.attempts, hStored]
      exact hLedger.attempts id
    · rw [hStep]
      exact attempts_storeRow hLedger hPhase id
  logged := by
    intro id
    unfold stepClean
    rcases stored_stepWorker config toLowercase s
      event.event with
      hStored | ⟨held, rest, outcome, mailed, hPhase, hStep⟩
    · have hQuiet :=
        quiet_stepWorker event.event hLedger.held hStored id
      rw [logged_stepWorker event hLedger.sound hStored id,
        hQuiet.settled]
      exact hLedger.logged id
    · rw [hStep]
      exact logged_storeRow hLedger hPhase id
  bounded := fun id row' hFind' hFirst =>
    bounded_row_stepWorker event.event hLedger id row' hFind'
      hFirst

theorem ledger_start
    (config : WorkerConfig)
    (outbox : Outbox)
    (suppression : List SuppressionRow)
    (clock : Int) :
    Ledger config outbox
      (Worker.start outbox suppression clock) where
  held := held_of_nil rfl
  sound := trivial
  kept := fun _ _ hOld _ => hOld
  processed := fun _ => rfl
  attempts := fun _ => rfl
  logged := by
    intro id
    have hFind :
        (Worker.start outbox suppression clock).outbox.find id =
          outbox.find id := rfl
    have hNone :
        loggedOutcomes
            (Worker.start outbox suppression clock).log id ++
          (Worker.start outbox suppression
            clock).phase.unlogged id = [] := rfl
    rw [hNone, hFind]
    unfold settledOutcomes
    cases outbox.find id with
    | none => rfl
    | some row =>
        unfold endedRow
        rw [Option.any_some, Option.filter_some]
        cases row.status.isTerminal with
        | false => rfl
        | true => rfl
  bounded := fun id row hFind hFirst => hFirst row hFind

theorem ledger_cleanAfter
    (config : WorkerConfig)
    (toLowercase : String → String)
    (outbox : Outbox)
    (suppression : List SuppressionRow)
    (clock : Int)
    (events : List CleanEvent) :
    Ledger config outbox
      (cleanAfter config toLowercase outbox suppression clock
        events) :=
  Run.invariant_exec ledger_stepClean events
    (ledger_start config outbox suppression clock)

--------------------
-- Ended Rows
--------------------

theorem statusMove_of_rowStep
    {config : WorkerConfig}
    {s s' : Worker}
    {row row' : OutboxRow}
    (hStep : RowStep config s s' row row') :
    StatusMove row.status row'.status := by
  cases hStep with
  | same => exact StatusMove.stay row.status
  | reclaim hSending =>
      rw [hSending]
      exact StatusMove.settle .pending Status.noConfusion
  | claim hPending =>
      rw [hPending]
      exact StatusMove.claim
  | store hSending =>
      rw [hSending]
      apply StatusMove.settle
      dsimp only
      rw [status_finalColumns]
      exact endStatus_ne_sending config _ _

/- An ended row is not passed to `send_email`. -/
theorem sends_of_terminal
    {config : WorkerConfig}
    {toLowercase : String → String}
    {s : Worker}
    {id : Nat}
    {row : OutboxRow}
    (event : WorkerEvent)
    (hHeld : Held s)
    (hFind : s.outbox.find id = some row)
    (hTerminal : row.status.isTerminal = true) :
    (stepWorker config toLowercase s event).sends.count id =
      s.sends.count id := by
  cases event with
  | cut => rfl
  | enqueue new => rfl
  | suppress rows => rfl
  | pass span => rfl
  | advance answers =>
      simp only [stepWorker]
      unfold runOneTick
      cases hPhase : s.phase with
      | draining todo =>
          cases todo with
          | nil => rfl
          | cons held rest =>
              have hOther : ¬ (held.id == id) = true := by
                intro hSame
                have hRow :=
                  hHeld.rows held
                    (by rw [hPhase]; exact List.mem_cons_self)
                rcases hRow.found with
                  ⟨stored, hStored, _, hStatus⟩
                rw [eq_of_beq hSame, hFind] at hStored
                rw [Option.some.inj hStored, hStatus, hPhase]
                  at hTerminal
                contradiction
              dsimp only
              unfold beginRow
              split
              · rfl
              · dsimp only
                rw [List.count_append, List.count_singleton,
                  if_neg hOther, Nat.add_zero]
      | _ => rfl

/- Nor in any number of steps. -/
theorem terminal_exec
    {config : WorkerConfig}
    {toLowercase : String → String}
    {s : Worker}
    {id : Nat}
    {row : OutboxRow}
    (later : List CleanEvent)
    (hHeld : Held s)
    (hFind : s.outbox.find id = some row)
    (hTerminal : row.status.isTerminal = true) :
    (Run.exec (stepClean config toLowercase) s
        later).outbox.find id = some row ∧
      (Run.exec (stepClean config toLowercase) s
        later).sends.count id = s.sends.count id := by
  induction later generalizing s with
  | nil => exact ⟨hFind, rfl⟩
  | cons event later ih =>
      have hHeld' :
          Held (stepClean config toLowercase s event) :=
        held_stepWorker s event.event hHeld
      have hFind' :
          (stepClean config toLowercase s event).outbox.find
            id = some row :=
        find_terminal event.event hHeld hFind hTerminal
      have hSends :
          (stepClean config toLowercase s event).sends.count
            id = s.sends.count id :=
        sends_of_terminal event.event hHeld hFind hTerminal
      rcases ih hHeld' hFind' with ⟨hKept, hCount⟩
      rw [Run.exec_cons]
      exact ⟨hKept, hCount.trans hSends⟩

/- A row is settled when it is not being worked on. -/
theorem settled_of_idle
    {s : Worker}
    {id : Nat}
    (hIdle : s.phase.inFlight ≠ some id) :
    s.phase.uncounted.count id = 0 ∧
      s.phase.unlogged id = [] := by
  cases hPhase : s.phase with
  | processed row rest outcome mailed =>
      rw [hPhase] at hIdle
      have hOther : row.id ≠ id :=
        fun hSame => hIdle (congrArg some hSame)
      constructor
      · apply List.count_eq_zero.mpr
        exact fun hMem =>
          hOther (List.mem_singleton.mp hMem).symm
      · rfl
  | finalized row rest outcome ended =>
      rw [hPhase] at hIdle
      have hOther : row.id ≠ id :=
        fun hSame => hIdle (congrArg some hSame)
      constructor
      · rfl
      · exact if_neg (fun hBoth => hOther hBoth.1)
  | _ => exact ⟨rfl, rfl⟩

--------------------
-- The Discipline of the Outbox
--------------------

/-
  Over any content and any run without faults, for every row:
  its status moves along the state machine, an ended row is
  kept and not sent again, its attempts and its log entry are
  those of its processing since the start unless it is just
  being worked on, and its attempts stay within the cap if
  they were.
-/
theorem outbox_discipline
    (config : WorkerConfig)
    (toLowercase : String → String)
    (outbox : Outbox)
    (suppression : List SuppressionRow)
    (clock : Int)
    (past later : List CleanEvent)
    (event : CleanEvent)
    (id : Nat)
    (row : OutboxRow)
    (hFind :
      (cleanAfter config toLowercase outbox suppression clock
        past).outbox.find id = some row) :
    (∃ row',
      (cleanAfter config toLowercase outbox suppression clock
        (past ++ [event])).outbox.find id = some row' ∧
      StatusMove row.status row'.status) ∧
    (row.status.isTerminal = true →
      (cleanAfter config toLowercase outbox suppression clock
        (past ++ later)).outbox.find id = some row ∧
      (cleanAfter config toLowercase outbox suppression clock
          (past ++ later)).sends.count id =
        (cleanAfter config toLowercase outbox suppression clock
          past).sends.count id) ∧
    ((cleanAfter config toLowercase outbox suppression clock
        past).phase.inFlight ≠ some id →
      row.attempts =
        attemptsOf (outbox.find id) +
          (cleanAfter config toLowercase outbox suppression
            clock past).processed.count id ∧
      loggedOutcomes
          (cleanAfter config toLowercase outbox suppression
            clock past).log id =
        settledOutcomes (outbox.find id) (some row)) ∧
    ((∀ old, outbox.find id = some old →
        RowBounded config old.attempts old) →
      (row.attempts : Int) ≤ max 1 config.maxAttempts) := by
  have hLedger :=
    ledger_cleanAfter config toLowercase outbox suppression
      clock past
  refine ⟨?_, ?_, ?_, ?_⟩
  · rcases rowStep_stepWorker event.event hLedger.held hFind
      with ⟨row', hFind', hStep⟩
    refine ⟨row', ?_, statusMove_of_rowStep hStep⟩
    unfold cleanAfter
    rw [Run.exec_append]
    exact hFind'
  · intro hTerminal
    unfold cleanAfter
    rw [Run.exec_append]
    exact terminal_exec later hLedger.held hFind hTerminal
  · intro hIdle
    rcases settled_of_idle hIdle with
      ⟨hCounted, hLogged⟩
    have hProcessed := hLedger.processed id
    have hAttempts := hLedger.attempts id
    have hOutcomes := hLedger.logged id
    rw [hFind] at hAttempts hOutcomes
    rw [hLogged, List.append_nil] at hOutcomes
    have hRow : attemptsOf (some row) = row.attempts := rfl
    constructor
    · omega
    · exact hOutcomes
  · intro hFirst
    exact le_of_rowBounded
      (hLedger.bounded id row hFind hFirst)

def delivered : SendResult where
  ok := true
  skipped := false
  messageId := some "msg_1"
  error := none

/- A tick that delivers the one message there is. -/
def deliveredNotice : List CleanEvent :=
  .enqueue offlineNotice ::
    List.replicate 7 (.advance true delivered)

/- The message is logged once, and stays sent. -/
theorem outbox_discipline_delivered :
    loggedOutcomes
        (cleanAfter ⟨20, 3⟩ id Outbox.empty [] 0
          deliveredNotice).log 1 =
      [⟨.sent, some "msg_1", none⟩] ∧
    (cleanAfter ⟨20, 3⟩ id Outbox.empty [] 0
        (deliveredNotice ++
          deliveredNotice)).sends.count 1 = 1 := by
  have hRow :=
    outbox_discipline ⟨20, 3⟩ id Outbox.empty [] 0
      deliveredNotice deliveredNotice (.pass 1) 1
      { offlineNotice.row 1 0 with
        status := .sent
        attempts := 1
        lastAttemptAt := some 0
        sentAt := some 0
        resendMessageId := some "msg_1" } rfl
  rcases hRow with ⟨_, hKept, hSettled, _⟩
  have hIdle :
      (cleanAfter ⟨20, 3⟩ id Outbox.empty [] 0
        deliveredNotice).phase.inFlight = none := rfl
  constructor
  · apply (hSettled ?_).2
    rw [hIdle]
    exact (Option.some_ne_none 1).symm
  · exact (hKept rfl).2

end Email

end SentinelCommand
