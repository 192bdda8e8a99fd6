import SentinelCommand.Email.OutboxRules

/-
  How often a row is mailed when ticks are cut off: once for
  each attempt that is stored, and once more for each tick
  that is cut off between the call of `send_email` and the
  store of its outcome.

  Main declarations:
    * `Email.RowBounded`
    * `Email.sends_bounded`
    * `Email.sends_unbounded`
-/

--------------------
-- Runs of the Worker
--------------------

namespace SentinelCommand

namespace Email

open Privacy (SuppressionRow)

/- The worker after any events, over any content. -/
def workerAfter
    (config : WorkerConfig)
    (toLowercase : String → String)
    (outbox : Outbox)
    (suppression : List SuppressionRow)
    (clock : Int)
    (events : List WorkerEvent) : Worker :=
  Run.exec (stepWorker config toLowercase)
    (Worker.start outbox suppression clock) events

/-
  How often an outcome may have been stored for a row: never,
  or fewer times than the cap while it can still be retried,
  and no more than the cap, or once, when it cannot.
-/
def RowBounded
    (config : WorkerConfig)
    (stored : Nat)
    (row : OutboxRow) : Prop :=
  if row.status.isTerminal then
    (stored : Int) ≤ max 1 config.maxAttempts
  else
    stored = 0 ∨
      stored ≤ row.attempts ∧
        (row.attempts : Int) < config.maxAttempts

theorem le_of_rowBounded
    {config : WorkerConfig}
    {stored : Nat}
    {row : OutboxRow}
    (hBounded : RowBounded config stored row) :
    (stored : Int) ≤ max 1 config.maxAttempts := by
  unfold RowBounded at hBounded
  split at hBounded
  · exact hBounded
  · omega

/- Below the cap there is room for one more. -/
theorem succ_le_of_rowBounded
    {config : WorkerConfig}
    {stored : Nat}
    {row : OutboxRow}
    (hOpen : row.status.isTerminal = false)
    (hBounded : RowBounded config stored row) :
    (stored : Int) + 1 ≤ max 1 config.maxAttempts := by
  unfold RowBounded at hBounded
  rw [hOpen] at hBounded
  simp only [Bool.false_eq_true, if_false] at hBounded
  omega

/- The bound is about the attempts of a row that is open. -/
theorem rowBounded_open
    {config : WorkerConfig}
    {stored : Nat}
    {row row' : OutboxRow}
    (hOpen : row.status.isTerminal = false)
    (hOpen' : row'.status.isTerminal = false)
    (hAttempts : row'.attempts = row.attempts)
    (hBounded : RowBounded config stored row) :
    RowBounded config stored row' := by
  unfold RowBounded at hBounded ⊢
  rw [hOpen', hAttempts]
  rw [hOpen] at hBounded
  exact hBounded

/- Storing an outcome uses up an attempt. -/
theorem rowBounded_store
    {config : WorkerConfig}
    {stored : Nat}
    {row held : OutboxRow}
    {outcome : Processed}
    {now : Int}
    (hSending : row.status = .sending)
    (hAttempts : row.attempts = held.attempts)
    (hBounded : RowBounded config stored row) :
    RowBounded config (stored + 1)
      { finalColumns config held outcome now row with
        id := row.id } := by
  have hOpen : row.status.isTerminal = false := by
    rw [hSending]
    rfl
  have hRoom := succ_le_of_rowBounded hOpen hBounded
  unfold RowBounded at hBounded
  rw [hOpen] at hBounded
  simp only [Bool.false_eq_true, if_false] at hBounded
  unfold RowBounded finalColumns endStatus
  cases outcome.status with
  | sent => exact hRoom
  | suppressed => exact hRoom
  | _ =>
      dsimp only
      by_cases hCap :
          config.maxAttempts ≤ ((held.attempts + 1 : Nat) : Int)
      · rw [if_pos hCap]
        exact hRoom
      · rw [if_neg hCap]
        right
        omega

--------------------
-- The Invariant
--------------------

structure AttemptsInv
    (config : WorkerConfig)
    (s : Worker) : Prop where
  held : Held s
  sends :
    ∀ id,
      s.sends.count id ≤
        s.stored.count id + s.interrupted.count id +
          s.phase.unsettled.count id
  absent :
    ∀ id, s.outbox.find id = none → s.stored.count id = 0
  bounded :
    ∀ id row, s.outbox.find id = some row →
      RowBounded config (s.stored.count id) row

/- A call that is under way is lost when the worker dies. -/
theorem sends_cutOff
    {s : Worker}
    (id : Nat)
    (hSends :
      s.sends.count id ≤
        s.stored.count id + s.interrupted.count id +
          s.phase.unsettled.count id) :
    (cutOff s).sends.count id ≤
      (cutOff s).stored.count id +
        (cutOff s).interrupted.count id +
          (cutOff s).phase.unsettled.count id := by
  have hLost :
      (cutOff s).interrupted.count id =
        s.interrupted.count id + s.phase.unsettled.count id :=
    List.count_append
  have hNone : (cutOff s).phase.unsettled = [] := rfl
  have hSends' :
      (cutOff s).sends.count id = s.sends.count id := rfl
  have hStored :
      (cutOff s).stored.count id = s.stored.count id := rfl
  rw [hLost, hNone, List.count_nil]
  omega

/- An outcome settles at most the call of its own row. -/
theorem count_unsettled_processed
    (row : OutboxRow)
    (rest : List OutboxRow)
    (outcome : Processed)
    (mailed : Bool)
    (id : Nat) :
    (Phase.processed row rest outcome
        mailed).unsettled.count id ≤
      [row.id].count id := by
  unfold Phase.unsettled
  cases mailed with
  | true => exact Nat.le_refl _
  | false => exact Nat.zero_le _

/- The calls that a step makes, settles or loses. -/
theorem sends_stepWorker
    {config : WorkerConfig}
    {toLowercase : String → String}
    {s : Worker}
    (event : WorkerEvent)
    (id : Nat)
    (hSends :
      s.sends.count id ≤
        s.stored.count id + s.interrupted.count id +
          s.phase.unsettled.count id) :
    (stepWorker config toLowercase s event).sends.count id ≤
      (stepWorker config toLowercase s event).stored.count id +
        (stepWorker config toLowercase s
          event).interrupted.count id +
          (stepWorker config toLowercase s
            event).phase.unsettled.count id := by
  cases event with
  | enqueue new => exact hSends
  | suppress rows => exact hSends
  | pass span => exact hSends
  | cut => exact sends_cutOff id hSends
  | advance answers =>
      simp only [stepWorker]
      unfold runOneTick
      cases hPhase : s.phase with
      | idle =>
          rw [hPhase] at hSends
          exact hSends
      | reclaimed =>
          rw [hPhase] at hSends
          have hNone :
              (fetchBatch config s).phase.unsettled = [] := by
            unfold fetchBatch
            dsimp only
            split <;> rfl
          dsimp only
          rw [hNone]
          exact hSends
      | fetched batch =>
          rw [hPhase] at hSends
          exact hSends
      | draining todo =>
          rw [hPhase] at hSends
          cases todo with
          | nil => exact hSends
          | cons row rest =>
              dsimp only
              unfold beginRow
              split
              · exact hSends
              · simp only [Phase.unsettled, List.count_nil,
                  List.count_append] at hSends ⊢
                omega
      | mailing row rest =>
          rw [hPhase] at hSends
          exact hSends
      | processed row rest outcome mailed =>
          rw [hPhase] at hSends
          have hSettled :=
            count_unsettled_processed row rest outcome mailed id
          simp only [storeRow, Phase.unsettled,
            List.count_append, List.count_nil] at hSends ⊢
          simp only [Phase.unsettled] at hSettled
          omega
      | finalized row rest outcome ended =>
          rw [hPhase] at hSends
          exact hSends

/- An outcome is stored for the row being worked on. -/
theorem stored_stepWorker
    (config : WorkerConfig)
    (toLowercase : String → String)
    (s : Worker)
    (event : WorkerEvent) :
    (stepWorker config toLowercase s event).stored =
        s.stored ∨
      ∃ row rest outcome mailed,
        s.phase = .processed row rest outcome mailed ∧
          stepWorker config toLowercase s event =
            storeRow config s row rest outcome := by
  cases event with
  | cut => exact Or.inl rfl
  | enqueue new => exact Or.inl rfl
  | suppress rows => exact Or.inl rfl
  | pass span => exact Or.inl rfl
  | advance answers =>
      simp only [stepWorker]
      unfold runOneTick
      cases hPhase : s.phase with
      | draining todo =>
          left
          cases todo with
          | nil => rfl
          | cons row rest =>
              dsimp only
              unfold beginRow
              split <;> rfl
      | processed row rest outcome mailed =>
          exact Or.inr ⟨row, rest, outcome, mailed, rfl, rfl⟩
      | _ => exact Or.inl rfl

theorem absent_stepWorker
    {config : WorkerConfig}
    {toLowercase : String → String}
    {s : Worker}
    (event : WorkerEvent)
    (hInv : AttemptsInv config s)
    (id : Nat)
    (hNone :
      (stepWorker config toLowercase s event).outbox.find id =
        none) :
    (stepWorker config toLowercase s event).stored.count id =
      0 := by
  have hBefore := find_none_before event hInv.held hNone
  have hCount := hInv.absent id hBefore
  rcases stored_stepWorker config toLowercase s event with
    hSame | ⟨held, rest, outcome, mailed, hPhase, hStep⟩
  · rw [hSame]
    exact hCount
  · rcases found_of_processed hPhase hInv.held with
      ⟨row, hFind, _⟩
    have hOther : held.id ≠ id := by
      rintro rfl
      rw [hBefore] at hFind
      contradiction
    rw [hStep]
    simp only [storeRow, List.count_append]
    rw [hCount, List.count_singleton, if_neg]
    simpa using hOther

theorem bounded_stepWorker
    {config : WorkerConfig}
    {toLowercase : String → String}
    {s : Worker}
    (event : WorkerEvent)
    (hInv : AttemptsInv config s)
    (id : Nat)
    (row' : OutboxRow)
    (hFind' :
      (stepWorker config toLowercase s event).outbox.find id =
        some row') :
    RowBounded config
      ((stepWorker config toLowercase s event).stored.count id)
      row' := by
  rcases find_some_before event hInv.held hFind' with
    ⟨row, hFind, hRow⟩ | ⟨hNone, new, hNew, rfl⟩
  · have hBounded := hInv.bounded id row hFind
    have hId := id_of_find hFind
    cases hRow with
    | same hStored =>
        rw [hId] at hStored
        rw [hStored]
        exact hBounded
    | reclaim hSending _ hStored =>
        have hOpen : row.status.isTerminal = false := by
          rw [hSending]
          rfl
        rw [hStored]
        exact rowBounded_open hOpen rfl rfl hBounded
    | claim hPending _ _ hStored =>
        have hOpen : row.status.isTerminal = false := by
          rw [hPending]
          rfl
        rw [hStored]
        exact rowBounded_open hOpen rfl rfl hBounded
    | store hSending _ _ hAttempts hStored _ =>
        rw [hStored, List.count_append, hId,
          List.count_singleton_self]
        exact rowBounded_store hSending hAttempts hBounded
  · have hCount := hInv.absent id hNone
    subst hNew
    have hStored :
        (stepWorker config toLowercase s
          (.enqueue new)).stored.count id = 0 := hCount
    rw [hStored]
    exact Or.inl rfl

theorem attemptsInv_stepWorker
    {config : WorkerConfig}
    {toLowercase : String → String}
    (s : Worker)
    (event : WorkerEvent)
    (hInv : AttemptsInv config s) :
    AttemptsInv config
      (stepWorker config toLowercase s event) where
  held := held_stepWorker s event hInv.held
  sends := fun id =>
    sends_stepWorker event id (hInv.sends id)
  absent := absent_stepWorker event hInv
  bounded := bounded_stepWorker event hInv

theorem attemptsInv_start
    (config : WorkerConfig)
    (outbox : Outbox)
    (suppression : List SuppressionRow)
    (clock : Int) :
    AttemptsInv config
      (Worker.start outbox suppression clock) where
  held := held_of_nil rfl
  sends := fun _ => Nat.le_refl 0
  absent := fun _ _ => rfl
  bounded := by
    intro id row _
    have hNone :
        (Worker.start outbox suppression clock).stored.count
          id = 0 := rfl
    rw [hNone]
    unfold RowBounded
    split
    · omega
    · exact Or.inl rfl

/- A row whose call is not settled has room for it. -/
theorem unsettled_room
    {config : WorkerConfig}
    {s : Worker}
    (hInv : AttemptsInv config s)
    (id : Nat) :
    ((s.stored.count id + s.phase.unsettled.count id : Nat) :
        Int) ≤
      max 1 config.maxAttempts := by
  have hOpen
      (row : OutboxRow)
      (hRow : row ∈ s.phase.todo)
      (hSending : s.phase.heldStatus = .sending)
      (hId : row.id = id) :
      (s.stored.count id : Int) + 1 ≤
        max 1 config.maxAttempts := by
    rcases (hInv.held.rows row hRow).found with
      ⟨stored, hFind, _, hStatus⟩
    rw [hId] at hFind
    refine succ_le_of_rowBounded ?_
      (hInv.bounded id stored hFind)
    rw [hStatus, hSending]
    rfl
  have hClosed :
      (s.stored.count id : Int) ≤ max 1 config.maxAttempts := by
    cases hFind : s.outbox.find id with
    | none =>
        rw [hInv.absent id hFind]
        omega
    | some row =>
        exact le_of_rowBounded (hInv.bounded id row hFind)
  have hOne
      (row : OutboxRow)
      (hRow : row ∈ s.phase.todo)
      (hSending : s.phase.heldStatus = .sending) :
      ((s.stored.count id + [row.id].count id : Nat) : Int) ≤
        max 1 config.maxAttempts := by
    by_cases hId : row.id = id
    · have hRoom := hOpen row hRow hSending hId
      rw [hId, List.count_singleton_self]
      omega
    · rw [List.count_singleton,
        if_neg (by simpa using hId)]
      exact hClosed
  cases hPhase : s.phase with
  | mailing row rest =>
      exact hOne row (by rw [hPhase]; exact List.mem_cons_self)
        (by rw [hPhase]; rfl)
  | processed row rest outcome mailed =>
      cases mailed with
      | false => exact hClosed
      | true =>
          exact hOne row
            (by rw [hPhase]; exact List.mem_cons_self)
            (by rw [hPhase]; rfl)
  | _ => exact hClosed

/-
  Whatever the outbox holds, whatever is answered and
  wherever ticks are cut off, a row is mailed at most as
  often as the cap allows, and once more for each tick that
  was cut off with its call unsettled.
-/
theorem sends_bounded
    (config : WorkerConfig)
    (toLowercase : String → String)
    (outbox : Outbox)
    (suppression : List SuppressionRow)
    (clock : Int)
    (events : List WorkerEvent)
    (id : Nat) :
    ((workerAfter config toLowercase outbox suppression clock
        events).sends.count id : Int) ≤
      max 1 config.maxAttempts +
        (workerAfter config toLowercase outbox suppression
          clock events).interrupted.count id := by
  have hInv :
      AttemptsInv config
        (workerAfter config toLowercase outbox suppression
          clock events) :=
    Run.invariant_exec attemptsInv_stepWorker events
      (attemptsInv_start config outbox suppression clock)
  have hSends := hInv.sends id
  have hRoom := unsettled_room hInv id
  omega

def noAnswer : Answers where
  queryOk := true
  result := ⟨false, false, none, none⟩
  logStored := true

/- A tick that dies inside `send_email`, and a minute. -/
def diedMailing : List WorkerEvent :=
  [.advance noAnswer, .advance noAnswer, .advance noAnswer,
    .advance noAnswer, .cut, .pass 61000000]

def offlineNotice : NewEmail where
  orgId := "org_1"
  recipientEmail := "ann@example.com"
  subject := "Camera offline"
  bodyText := "The camera is offline."
  bodyHtml := "<p>The camera is offline.</p>"
  kind := "camera_offline"

/- Four ticks that die mailing a row that may be tried thrice. -/
theorem sends_unbounded :
    ¬ ((workerAfter ⟨20, 3⟩ id Outbox.empty [] 0
        ([.enqueue offlineNotice] ++ diedMailing ++
          diedMailing ++ diedMailing ++
            diedMailing)).sends.count 1 : Int) ≤ 3 := by
  decide

end Email

end SentinelCommand
