import Mathlib.Data.List.Nodup
import Mathlib.Data.List.Sort
import SentinelCommand.Lib.Run
import SentinelCommand.Privacy.Tables

/-
  The outbox drain: `email_worker.rs`, one await point at a
  time.

  A tick may be cut off at each of its await points, by the
  process or by a statement that fails. The notes of a run
  are the calls of `send_email`, the outcomes that were
  reached and stored, and the calls that were cut off before
  their outcome was stored.

  Key definitions include:
    * `Email.Outbox`
    * `Email.processRow`, `Email.finalizeRow`
    * `Email.Phase`, `Email.Worker`
-/

--------------------
-- The outbox
--------------------

namespace SentinelCommand

namespace Email

inductive Status where
  | pending
  | sending
  | sent
  | suppressed
  | failed
  deriving DecidableEq, Repr

def Status.isTerminal : Status → Bool
| .pending => false
| .sending => false
| .sent => true
| .suppressed => true
| .failed => true

structure OutboxRow where
  id : Nat
  orgId : String
  recipientEmail : String
  subject : String
  bodyText : String
  bodyHtml : String
  kind : String
  status : Status
  attempts : Nat
  lastAttemptAt : Option Int
  sentAt : Option Int
  resendMessageId : Option String
  error : Option String
  createdAt : Option Int
  deriving DecidableEq, Repr

/- What an enqueued message is inserted with. -/
structure NewEmail where
  orgId : String
  recipientEmail : String
  subject : String
  bodyText : String
  bodyHtml : String
  kind : String
  deriving DecidableEq, Repr

/- The table, whose ids are unique and never used again. -/
structure Outbox where
  rows : List OutboxRow
  nextId : Nat
  unique : (rows.map OutboxRow.id).Nodup
  fresh : ∀ row ∈ rows, row.id < nextId

def Outbox.empty : Outbox where
  rows := []
  nextId := 1
  unique := List.nodup_nil
  fresh := by simp

def Outbox.find
    (outbox : Outbox)
    (id : Nat) : Option OutboxRow :=
  outbox.rows.find? (fun row => row.id == id)

def NewEmail.row
    (new : NewEmail)
    (id : Nat)
    (now : Int) : OutboxRow where
  id := id
  orgId := new.orgId
  recipientEmail := new.recipientEmail
  subject := new.subject
  bodyText := new.bodyText
  bodyHtml := new.bodyHtml
  kind := new.kind
  status := .pending
  attempts := 0
  lastAttemptAt := none
  sentAt := none
  resendMessageId := none
  error := none
  createdAt := some now

theorem Outbox.fresh_unique
    (outbox : Outbox)
    (new : OutboxRow)
    (hId : new.id = outbox.nextId) :
    ((outbox.rows ++ [new]).map OutboxRow.id).Nodup := by
  rw [List.map_append, List.nodup_append]
  refine ⟨outbox.unique, List.nodup_singleton _, ?_⟩
  intro id hOld other hNew hSame
  rcases List.mem_map.mp hOld with ⟨row, hRow, rfl⟩
  have hOther : other = outbox.nextId := by
    rw [← hId]
    exact List.mem_singleton.mp hNew
  have hBelow := outbox.fresh row hRow
  omega

/- The INSERT of `enqueue_email`. -/
def Outbox.enqueue
    (outbox : Outbox)
    (new : NewEmail)
    (now : Int) : Outbox where
  rows := outbox.rows ++ [new.row outbox.nextId now]
  nextId := outbox.nextId + 1
  unique := outbox.fresh_unique _ rfl
  fresh := by
    intro row hRow
    rcases List.mem_append.mp hRow with hOld | hNew
    · exact Nat.lt_succ_of_lt (outbox.fresh row hOld)
    · rw [List.mem_singleton.mp hNew]
      exact Nat.lt_succ_self outbox.nextId

/- A row after an UPDATE that may concern it. -/
def updated
    (keeps : OutboxRow → Bool)
    (set : OutboxRow → OutboxRow)
    (row : OutboxRow) : OutboxRow :=
  if keeps row then { set row with id := row.id } else row

theorem updated_id
    (keeps : OutboxRow → Bool)
    (set : OutboxRow → OutboxRow)
    (row : OutboxRow) :
    (updated keeps set row).id = row.id := by
  unfold updated
  split <;> rfl

/- An UPDATE sets columns other than the id. -/
def Outbox.update
    (outbox : Outbox)
    (keeps : OutboxRow → Bool)
    (set : OutboxRow → OutboxRow) : Outbox where
  rows := outbox.rows.map (updated keeps set)
  nextId := outbox.nextId
  unique := by
    have hIds :
        (outbox.rows.map (updated keeps set)).map
            OutboxRow.id =
          outbox.rows.map OutboxRow.id := by
      rw [List.map_map]
      exact List.map_congr_left
        (fun row _ => updated_id keeps set row)
    rw [hIds]
    exact outbox.unique
  fresh := by
    intro row hRow
    rcases List.mem_map.mp hRow with ⟨old, hOld, rfl⟩
    rw [updated_id]
    exact outbox.fresh old hOld

--------------------
-- One row
--------------------

open Privacy (SuppressionRow)

structure OutgoingEmail where
  recipient : String
  subject : String
  bodyText : String
  bodyHtml : String
  kind : String
  idempotencyKey : String
  deriving DecidableEq, Repr

/- `EmailSendResult`. -/
structure SendResult where
  ok : Bool
  skipped : Bool
  messageId : Option String
  error : Option String
  deriving DecidableEq, Repr

/- The outcome of one row, before anything is persisted. -/
structure Processed where
  status : Status
  messageId : Option String
  error : Option String
  deriving DecidableEq, Repr

structure WorkerConfig where
  batchSize : Nat
  maxAttempts : Int
  deriving DecidableEq, Repr

/- A query that fails reads as no suppression. -/
def findSuppression
    (toLowercase : String → String)
    (suppression : List SuppressionRow)
    (queryOk : Bool)
    (row : OutboxRow) : Option String :=
  if queryOk then
    (suppression.find?
      (fun entry =>
        entry.address == toLowercase row.recipientEmail)).map
      SuppressionRow.reason
  else
    none

def suppressedOutcome (reason : String) : Processed where
  status := .suppressed
  messageId := none
  error := some ("address_suppressed: reason=" ++ reason)

/- Every retry of a row shares one key. -/
def outgoing (row : OutboxRow) : OutgoingEmail where
  recipient := row.recipientEmail
  subject := row.subject
  bodyText := row.bodyText
  bodyHtml := row.bodyHtml
  kind := row.kind
  idempotencyKey := "outbox-" ++ toString row.id

def sendOutcome (result : SendResult) : Processed :=
  if result.skipped then
    ⟨.sent, none, none⟩
  else if result.ok then
    ⟨.sent, result.messageId, none⟩
  else
    ⟨.failed, none, result.error⟩

/-
  `process_row`: the message it passes to `send_email`, if
  any, and its outcome.
-/
def processRow
    (toLowercase : String → String)
    (suppression : List SuppressionRow)
    (queryOk : Bool)
    (result : SendResult)
    (row : OutboxRow) : Option OutgoingEmail × Processed :=
  match findSuppression toLowercase suppression queryOk row with
  | some reason => (none, suppressedOutcome reason)
  | none => (some (outgoing row), sendOutcome result)

/- At the cap a failure stays, below it the row is retried. -/
def endStatus
    (config : WorkerConfig)
    (row : OutboxRow)
    (outcome : Processed) : Status :=
  match outcome.status with
  | .sent => .sent
  | .suppressed => .suppressed
  | _ =>
      if config.maxAttempts ≤ ((row.attempts + 1 : Nat) : Int) then
        .failed
      else
        .pending

/- The columns that each of the three UPDATEs sets. -/
def finalColumns
    (config : WorkerConfig)
    (row : OutboxRow)
    (outcome : Processed)
    (now : Int)
    (stored : OutboxRow) : OutboxRow :=
  match outcome.status with
  | .sent =>
      { stored with
        attempts := row.attempts + 1
        status := .sent
        sentAt := some now
        resendMessageId := outcome.messageId
        error := none }
  | _ =>
      { stored with
        attempts := row.attempts + 1
        status := endStatus config row outcome
        error := outcome.error }

def finalizeRow
    (config : WorkerConfig)
    (outbox : Outbox)
    (row : OutboxRow)
    (outcome : Processed)
    (now : Int) : Outbox × Status :=
  (outbox.update (fun stored => stored.id == row.id)
    (finalColumns config row outcome now),
    endStatus config row outcome)

/- A log row, with the note of the row it is about. -/
structure EmailLog where
  orgId : String
  recipientEmail : String
  kind : String
  status : Status
  resendMessageId : Option String
  error : Option String
  timestamp : Int
  about : Nat
  deriving DecidableEq, Repr

/- Nothing is logged mid-retry, or when the INSERT fails. -/
def writeLog
    (log : List EmailLog)
    (row : OutboxRow)
    (outcome : Processed)
    (ended : Status)
    (stored : Bool)
    (now : Int) : List EmailLog :=
  if outcome.status == .failed && ended == .pending then
    log
  else if stored then
    log ++
      [{ orgId := row.orgId
         recipientEmail := row.recipientEmail
         kind := row.kind
         status := outcome.status
         resendMessageId := outcome.messageId
         error := outcome.error
         timestamp := now
         about := row.id }]
  else
    log

--------------------
-- The worker
--------------------

structure TickSummary where
  sent : Nat
  failed : Nat
  suppressed : Nat
  reclaimed : Nat
  deriving DecidableEq, Repr

def TickSummary.zero : TickSummary where
  sent := 0
  failed := 0
  suppressed := 0
  reclaimed := 0

/- A retry is counted in the tick it settles in. -/
def TickSummary.count
    (summary : TickSummary) : Status → TickSummary
| .sent => { summary with sent := summary.sent + 1 }
| .failed => { summary with failed := summary.failed + 1 }
| .suppressed =>
    { summary with suppressed := summary.suppressed + 1 }
| _ => summary

/-
  Where a tick stands: after the reclaim, after the SELECT,
  with rows left of the claimed batch, inside `send_email`,
  with an outcome to store, and with a log row to write.
-/
inductive Phase where
  | idle
  | reclaimed
  | fetched (batch : List OutboxRow)
  | draining (todo : List OutboxRow)
  | mailing (row : OutboxRow) (rest : List OutboxRow)
  | processed
      (row : OutboxRow)
      (rest : List OutboxRow)
      (outcome : Processed)
      (mailed : Bool)
  | finalized
      (row : OutboxRow)
      (rest : List OutboxRow)
      (outcome : Processed)
      (ended : Status)
  deriving DecidableEq, Repr

structure Worker where
  outbox : Outbox
  log : List EmailLog
  suppression : List SuppressionRow
  clock : Int
  lastTick : Option Int
  phase : Phase
  summary : TickSummary
  sends : List Nat
  processed : List Nat
  stored : List Nat
  interrupted : List Nat

/- A worker that has not ticked, over any content. -/
def Worker.start
    (outbox : Outbox)
    (suppression : List SuppressionRow)
    (clock : Int) : Worker where
  outbox := outbox
  log := []
  suppression := suppression
  clock := clock
  lastTick := none
  phase := .idle
  summary := TickSummary.zero
  sends := []
  processed := []
  stored := []
  interrupted := []

def sendingReclaimAgeSeconds : Int := 60

def stuck (cutoff : Int) (row : OutboxRow) : Bool :=
  row.status == .sending &&
    row.lastAttemptAt.any (fun at' => at' < cutoff)

def toPending (row : OutboxRow) : OutboxRow :=
  { row with status := .pending }

/- `ORDER BY created_at NULLS LAST, id`. -/
def queuedBefore (a b : OutboxRow) : Bool :=
  match a.createdAt, b.createdAt with
  | some x, some y => x < y || x == y && a.id ≤ b.id
  | some _, none => true
  | none, some _ => false
  | none, none => a.id ≤ b.id

def pendingBatch
    (config : WorkerConfig)
    (outbox : Outbox) : List OutboxRow :=
  ((outbox.rows.filter
    (fun row => row.status == .pending)).insertionSort
      (fun a b => queuedBefore a b = true)).take
    config.batchSize

def toSending (now : Int) (row : OutboxRow) : OutboxRow :=
  { row with
    status := .sending
    lastAttemptAt := some now }

/- What the outside answers at an await point. -/
structure Answers where
  queryOk : Bool
  result : SendResult
  logStored : Bool
  deriving DecidableEq, Repr

/- The stamp and the reclaim of a tick. -/
def beginTick (s : Worker) : Worker :=
  let cutoff := s.clock - seconds sendingReclaimAgeSeconds
  { s with
    lastTick := some s.clock
    outbox := s.outbox.update (stuck cutoff) toPending
    summary :=
      { TickSummary.zero with
        reclaimed := s.outbox.rows.countP (stuck cutoff) }
    phase := .reclaimed }

def fetchBatch (config : WorkerConfig) (s : Worker) : Worker :=
  let batch := pendingBatch config s.outbox
  { s with
    phase := if batch.isEmpty then .idle else .fetched batch }

def claimBatch (s : Worker) (batch : List OutboxRow) : Worker :=
  { s with
    outbox :=
      s.outbox.update
        (fun row => (batch.map OutboxRow.id).contains row.id)
        (toSending s.clock)
    phase := .draining batch }

/- `process_row` up to its call of `send_email`. -/
def beginRow
    (toLowercase : String → String)
    (queryOk : Bool)
    (s : Worker)
    (row : OutboxRow)
    (rest : List OutboxRow) : Worker :=
  match findSuppression toLowercase s.suppression queryOk row with
  | some reason =>
      { s with
        phase :=
          .processed row rest (suppressedOutcome reason) false
        processed := s.processed ++ [row.id] }
  | none =>
      { s with
        phase := .mailing row rest
        sends := s.sends ++ [row.id] }

def endRow
    (s : Worker)
    (row : OutboxRow)
    (rest : List OutboxRow)
    (result : SendResult) : Worker :=
  { s with
    phase := .processed row rest (sendOutcome result) true
    processed := s.processed ++ [row.id] }

def storeRow
    (config : WorkerConfig)
    (s : Worker)
    (row : OutboxRow)
    (rest : List OutboxRow)
    (outcome : Processed) : Worker :=
  let ended := finalizeRow config s.outbox row outcome s.clock
  { s with
    outbox := ended.1
    phase := .finalized row rest outcome ended.2
    stored := s.stored ++ [row.id] }

def logRow
    (s : Worker)
    (row : OutboxRow)
    (rest : List OutboxRow)
    (outcome : Processed)
    (ended : Status)
    (stored : Bool) : Worker :=
  { s with
    log := writeLog s.log row outcome ended stored s.clock
    summary := s.summary.count ended
    phase := .draining rest }

/- `run_one_tick`, up to its next await point. -/
def runOneTick
    (config : WorkerConfig)
    (toLowercase : String → String)
    (answers : Answers)
    (s : Worker) : Worker :=
  match s.phase with
  | .idle => beginTick s
  | .reclaimed => fetchBatch config s
  | .fetched batch => claimBatch s batch
  | .draining [] => { s with phase := .idle }
  | .draining (row :: rest) =>
      beginRow toLowercase answers.queryOk s row rest
  | .mailing row rest => endRow s row rest answers.result
  | .processed row rest outcome _ =>
      storeRow config s row rest outcome
  | .finalized row rest outcome ended =>
      logRow s row rest outcome ended answers.logStored

/- The row whose call of `send_email` has no stored outcome. -/
def Phase.unsettled : Phase → List Nat
| .mailing row _ => [row.id]
| .processed row _ _ mailed => if mailed then [row.id] else []
| _ => []

/- The tick is gone, and what it had in memory. -/
def cutOff (s : Worker) : Worker :=
  { s with
    phase := .idle
    interrupted := s.interrupted ++ s.phase.unsettled }

inductive WorkerEvent where
  | advance (answers : Answers)
  | cut
  | enqueue (new : NewEmail)
  | suppress (rows : List SuppressionRow)
  | pass (span : Nat)
  deriving DecidableEq, Repr

def stepWorker
    (config : WorkerConfig)
    (toLowercase : String → String)
    (s : Worker) : WorkerEvent → Worker
| .advance answers => runOneTick config toLowercase answers s
| .cut => cutOff s
| .enqueue new =>
    { s with outbox := s.outbox.enqueue new s.clock }
| .suppress rows => { s with suppression := rows }
| .pass span => { s with clock := s.clock + span }

end Email

end SentinelCommand
