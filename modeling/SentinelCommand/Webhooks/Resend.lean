import SentinelCommand.Json
import SentinelCommand.Lib.Faults
import SentinelCommand.Text

/-
  The Resend webhook of `webhooks.rs`, from a verified,
  parsed delivery on.

  A bounce or a complaint puts its recipients on the
  suppression list and marks the outbox row it came from.
  Every statement of the handler swallows its error, the
  insert of the dedup row included. Lower-casing and the
  spelling of a float are parameters.

  Main declarations:
    * `Resend.resendWebhook`
    * `Resend.MarkedOnlyIfStored`
    * `Resend.markedOnlyIfStored_iff`
-/

--------------------
-- Tables
--------------------

namespace SentinelCommand

namespace Resend

open Faults

/- An `email_outbox` row. -/
structure OutboxRow where
  resendMessageId : Option String
  status : String
  error : Option String
  deriving DecidableEq, Repr

/- The suppression list pairs an address with a reason. -/
structure Db where
  suppression : List (String × String)
  outbox : List OutboxRow
  processed : List (String × String)
  deriving DecidableEq, Repr

structure Env where
  toLowercase : List Char → List Char
  floatText : String → String

/- An address on the list stays; a duplicate is refused. -/
def store (reason : String) : Store Db String where
  holds address db :=
    db.suppression.any (fun row => row.1 = address)
  apply address db :=
    { db with
      suppression := db.suppression ++ [(address, reason)] }

abbrev Handler (α : Type) : Type :=
  Faults.Handler Db String α

--------------------
-- Handler
--------------------

/- Which events suppress an address, and why. -/
def suppressionReason (eventType : String) : Option String :=
  if eventType = "email.bounced" then
    some "bounce"
  else if eventType = "email.complained" then
    some "complaint"
  else
    none

def hasAt (address : String) : Bool :=
  address.toList.contains '@'

/- Recipients out of a payload: a list, or one string. -/
def extractAddresses (data : Fields) : List String :=
  match data.lookup "to" with
  | some (.array items) =>
      (items.filterMap Json.asStr).filter hasAt
  | some (.string address) =>
      if hasAt address then [address] else []
  | _ => []

/- `address.trim().to_lowercase()`. -/
def normalised (env : Env) (address : String) : String :=
  String.ofList (env.toLowercase (Text.trim address.toList))

/- Suppress an address, ignoring a duplicate. -/
def insertSuppression
    (env : Env)
    (reason address : String) : Handler Unit :=
  let addr := normalised env address
  if addr = "" ∨ hasAt addr = false then
    pure ()
  else
    attempt (store reason) addr

def insertSuppressions
    (env : Env)
    (reason : String) : List String → Handler Unit
| [] => pure ()
| address :: rest => do
    insertSuppression env reason address
    insertSuppressions env reason rest

/- `UPDATE email_outbox SET status = 'suppressed'`. -/
def markOutbox
    (emailId error : String)
    (db : Db) : Db :=
  { db with
    outbox :=
      db.outbox.map (fun row =>
        if
          row.resendMessageId = some emailId ∧
            row.status = "sent"
        then
          { row with
            status := "suppressed"
            error := some error }
        else
          row) }

def emailId (data : Fields) : Option String :=
  (data.lookup "email_id").bind Json.asStr

/- A bounce or a complaint. -/
def suppress
    (env : Env)
    (eventType reason : String)
    (data : Fields) : Handler Unit := do
  insertSuppressions env reason (extractAddresses data)
  match emailId data with
  | none => pure ()
  | some emailId =>
      swallow (markOutbox emailId
        ("webhook_event:" ++ eventType ++ ":reason=" ++ reason))

def typeValue (event : Fields) : Json :=
  (event.lookup "type").getD .null

/- `event.get("type") or ""`, absent for other values. -/
def eventType (event : Fields) : Option String :=
  if (typeValue event).truthy then
    (typeValue event).asStr
  else
    some ""

/- `event.get("data") or {}`, absent for other values. -/
def eventData (event : Fields) : Option Fields :=
  let value := (event.lookup "data").getD .null
  if value.truthy then value.asObject else some []

/- A truthy list or object cannot be looked up by type. -/
def unhashable (event : Fields) : Bool :=
  (typeValue event).truthy &&
    match typeValue event with
    | .array _ => true
    | .object _ => true
    | _ => false

/- The type as the dedup row stores it. -/
def storedType (env : Env) (event : Fields) : Option String :=
  match eventType event with
  | some text => some text
  | none =>
      match typeValue event with
      | .integer value => some (toString value)
      | .float spelling => some (env.floatText spelling)
      | .bool value => some (if value then "true" else "false")
      | _ => none

def insertProcessed
    (msgId eventType : String)
    (db : Db) : Db :=
  { db with processed := (msgId, eventType) :: db.processed }

def Db.seen (db : Db) (msgId : String) : Bool :=
  db.processed.any (fun row => row.1 = msgId)

/- The branches of an event that is not a duplicate. -/
def handle
    (env : Env)
    (event : Fields) : Handler Unit :=
  let text := (eventType event).getD ""
  if unhashable event then
    refuse "resend event type is unhashable"
  else
    match suppressionReason text, eventData event with
    | some _, none =>
        refuse "resend event data is not an object"
    | some reason, some data => suppress env text reason data
    | none, none =>
        if text = "email.delivered" then
          refuse "resend event data is not an object"
        else
          pure ()
    | none, some _ => pure ()

/- The dedup row; its error is swallowed like the others. -/
def recordDelivery
    (env : Env)
    (msgId : String)
    (event : Fields) : Handler Unit :=
  if msgId = "" then
    pure ()
  else
    match storedType env event with
    | none => pure ()
    | some text => swallow (insertProcessed msgId text)

def resendWebhook
    (env : Env)
    (msgId : String)
    (event : Fields) : Handler Unit := do
  let duplicate ←
    read (fun db => msgId != "" && db.seen msgId)
  if duplicate then
    pure ()
  else do
    handle env event
    recordDelivery env msgId event

--------------------
-- Rows
--------------------

variable {env : Env} {o : Outcomes} {w : World Db String}

/- The addresses a list of recipients puts on the list. -/
def suppressed
    (env : Env)
    (addresses : List String) : List String :=
  (addresses.map (normalised env)).filter (fun addr =>
    addr ≠ "" ∧ hasAt addr = true)

/- Whom an event suppresses, why, and which row it marks. -/
structure Row where
  reason : String
  addresses : List String
  mark : Option String
  error : String

def Row.idle : Row :=
  { reason := "", addresses := [], mark := none, error := "" }

/- What an event calls for, or why it is refused. -/
def rowFor
    (env : Env)
    (event : Fields) : Except String Row :=
  let text := (eventType event).getD ""
  if unhashable event then
    .error "resend event type is unhashable"
  else
    match suppressionReason text, eventData event with
    | some _, none =>
        .error "resend event data is not an object"
    | some reason, some data =>
        .ok
          { reason := reason
            addresses := suppressed env (extractAddresses data)
            mark := emailId data
            error :=
              "webhook_event:" ++ text ++ ":reason=" ++ reason }
    | none, none =>
        if text = "email.delivered" then
          .error "resend event data is not an object"
        else
          .ok .idle
    | none, some _ => .ok .idle

/- The outbox mark of a row, if it has one. -/
def Row.marked
    (row : Row)
    (o : Outcomes)
    (w : World Db String) : World Db String :=
  match row.mark with
  | none => w
  | some emailId =>
      ((swallow (markOutbox emailId row.error) : Handler Unit)
        o w).2

/- The world after a row. -/
def Row.after
    (row : Row)
    (o : Outcomes)
    (w : World Db String) : World Db String :=
  row.marked o (w.attemptedAll (store row.reason) o row.addresses)

theorem insertSuppressions_run
    (env : Env)
    (o : Outcomes)
    (reason : String)
    (addresses : List String)
    (w : World Db String) :
    insertSuppressions env reason addresses o w =
      (.ok (),
        w.attemptedAll (store reason) o
          (suppressed env addresses)) := by
  induction addresses generalizing w with
  | nil => rfl
  | cons address rest ih =>
      by_cases hSkip :
          normalised env address = "" ∨
            hasAt (normalised env address) = false
      · have hSuppressed :
            suppressed env (address :: rest) =
              suppressed env rest := by
          rcases hSkip with hEmpty | hPlain
          · simp [suppressed, hEmpty]
          · simp [suppressed, hPlain]
        simp only [insertSuppressions, insertSuppression,
          if_pos hSkip, bind_run, pure_run, ih, hSuppressed]
      · rcases not_or.mp hSkip with ⟨hSome, hAt⟩
        rw [Bool.not_eq_false] at hAt
        have hSuppressed :
            suppressed env (address :: rest) =
              normalised env address ::
                suppressed env rest := by
          simp [suppressed, hSome, hAt]
        simp only [insertSuppressions, insertSuppression,
          if_neg hSkip, bind_run, attempt_run, ih, hSuppressed]
        rfl

theorem handle_eq
    (env : Env)
    (event : Fields)
    (o : Outcomes)
    (w : World Db String) :
    handle env event o w =
      match rowFor env event with
      | .error message => (.error message, w)
      | .ok row => (.ok (), row.after o w) := by
  unfold handle rowFor
  dsimp only
  by_cases hHash : unhashable event = true
  · simp only [if_pos hHash]
    rfl
  · simp only [if_neg hHash]
    cases hReason :
        suppressionReason ((eventType event).getD "") with
    | none =>
        cases hData : eventData event with
        | none =>
            by_cases hDelivered :
                (eventType event).getD "" = "email.delivered"
            · simp only [if_pos hDelivered]
              rfl
            · simp only [if_neg hDelivered]
              rfl
        | some data => rfl
    | some reason =>
        cases hData : eventData event with
        | none => rfl
        | some data =>
            cases hMail : emailId data with
            | none =>
                simp [suppress, bind_run,
                  insertSuppressions_run, hMail, pure_run,
                  Row.after, Row.marked]
            | some mail =>
                simp [suppress, bind_run,
                  insertSuppressions_run, hMail, swallow,
                  Row.after, Row.marked]

--------------------
-- Marked Deliveries
--------------------

variable {env : Env} {o : Outcomes}

/- How many statements run before the dedup insert. -/
def Row.statements (row : Row) : Nat :=
  row.addresses.length + (if row.mark.isSome then 1 else 0)

/- The addresses an event calls to suppress. -/
def calledFor (env : Env) (event : Fields) : List String :=
  match rowFor env event with
  | .error _ => []
  | .ok row => row.addresses

/-
  A delivery that gets its dedup row has every address it
  calls for on the suppression list.
-/
def MarkedOnlyIfStored
    (env : Env)
    (msgId : String)
    (event : Fields)
    (db : Db)
    (o : Outcomes) : Prop :=
  db.seen msgId = false →
    (resendWebhook env msgId event o (.start db)).2.db.seen
        msgId = true →
      ∀ address ∈ calledFor env event,
        address ∈ (resendWebhook env msgId event o
          (.start db)).2.stored

/- Each address is listed already or one insert of it runs. -/
def AddressesHold
    (row : Row)
    (db : Db)
    (o : Outcomes) : Prop :=
  ∀ address ∈ row.addresses,
    (store row.reason).holds address db = true ∨
      ∃ i, row.addresses[i]? = some address ∧
        o.swallowed i = true

/- Inserts of addresses do not contend. -/
theorem agrees_addresses
    (reason : String)
    (addresses : List String) :
    (store reason).Agrees addresses := by
  intro address _ other _ db
  simp only [store, List.any_append, List.any_cons,
    List.any_nil, Bool.or_false, Bool.or_eq_true,
    decide_eq_true_eq]
  constructor
  · rintro (hOld | hNew)
    · exact Or.inr hOld
    · exact Or.inl hNew.symm
  · rintro (hNew | hOld)
    · exact Or.inr hNew.symm
    · exact Or.inl hOld

theorem marked_stored
    (row : Row)
    (w : World Db String) :
    (row.marked o w).stored = w.stored := by
  unfold Row.marked
  split <;> rfl

theorem marked_processed
    (row : Row)
    (w : World Db String) :
    (row.marked o w).db.processed = w.db.processed := by
  unfold Row.marked
  split
  · rfl
  · simp only [swallow]
    split <;> rfl

theorem after_processed
    (row : Row)
    (w : World Db String) :
    (row.after o w).db.processed = w.db.processed := by
  have hWrites :=
    attemptedAll_frame (store row.reason) Db.processed
      (fun _ _ => rfl) o w row.addresses
  exact (marked_processed row _).trans hWrites

theorem after_swallows
    (row : Row)
    (db : Db) :
    (row.after o (.start db)).swallows = row.statements := by
  have hWrites :=
    attemptedAll_swallows (store row.reason) o (.start db)
      row.addresses
  have hStart :
      (World.start db : World Db String).swallows = 0 := rfl
  rw [hStart, Nat.zero_add] at hWrites
  unfold Row.after Row.marked Row.statements
  cases row.mark with
  | none => simpa using hWrites
  | some emailId => simp [swallow, hWrites]

/- The addresses of a row whose inserts have all been tried. -/
theorem mem_stored_after
    (o : Outcomes)
    (row : Row)
    (db : Db) :
    (∀ address ∈ row.addresses,
      address ∈ (row.after o (.start db)).stored) ↔
      AddressesHold row db o := by
  have hStored :=
    mem_stored_attemptedAll
      (agrees_addresses row.reason row.addresses) o
      row.addresses (List.Subset.refl _) (World.start db)
  simp only [World.start, Nat.zero_add, List.not_mem_nil,
    false_or] at hStored
  unfold AddressesHold Row.after
  rw [marked_stored]
  constructor
  · intro hAll address hMem
    rcases (hStored address).mp (hAll address hMem) with
      ⟨_, hHolds⟩ | hRan
    · exact Or.inl hHolds
    · exact Or.inr hRan
  · intro hAll address hMem
    apply (hStored address).mpr
    rcases hAll address hMem with hHolds | hRan
    · exact Or.inl ⟨hMem, hHolds⟩
    · exact Or.inr hRan

theorem seen_congr
    {db later : Db}
    (hProcessed : later.processed = db.processed)
    (msgId : String) :
    later.seen msgId = db.seen msgId := by
  simp [Db.seen, hProcessed]

/- A fresh delivery: its row, then its mark. -/
theorem resendWebhook_run
    {env : Env}
    (o : Outcomes)
    {msgId : String}
    {db : Db}
    (hFresh : db.seen msgId = false)
    {event : Fields}
    {row : Row}
    (hRow : rowFor env event = .ok row) :
    resendWebhook env msgId event o (.start db) =
      recordDelivery env msgId event o
        (row.after o (.start db)) := by
  have hNew : (msgId != "" && db.seen msgId) = false := by
    simp [hFresh]
  have hStart : (World.start db : World Db String).db = db :=
    rfl
  simp only [resendWebhook, bind_run, read_run, hStart, hNew,
    Bool.false_eq_true, if_false, handle_eq, hRow]

/-
  A marked delivery has had its addresses suppressed exactly
  when it is not marked at all (it has no id, was seen
  before, is refused, has a type that cannot be stored, or
  its dedup insert fails) or none of its swallowed inserts
  was lost.
-/
theorem markedOnlyIfStored_iff
    (env : Env)
    (msgId : String)
    (event : Fields)
    (db : Db)
    (o : Outcomes) :
    MarkedOnlyIfStored env msgId event db o ↔
      msgId = "" ∨ db.seen msgId = true ∨
        ∀ row, rowFor env event = .ok row →
          storedType env event = none ∨
            o.swallowed row.statements = false ∨
            AddressesHold row db o := by
  unfold MarkedOnlyIfStored calledFor
  cases hFresh : db.seen msgId with
  | true => simp
  | false =>
      cases hRow : rowFor env event with
      | error message => simp
      | ok row =>
          have hRun := resendWebhook_run o hFresh hRow
          have hUnseen :
              (row.after o (.start db)).db.seen msgId =
                false :=
            (seen_congr (after_processed row _) msgId).trans
              hFresh
          have hAddresses := mem_stored_after o row db
          rw [hRun]
          simp only [true_imp_iff, Bool.false_eq_true,
            false_or, Except.ok.injEq, forall_eq']
          by_cases hId : msgId = ""
          · subst hId
            simp [recordDelivery, pure_run, hUnseen]
          · cases hType : storedType env event with
            | none =>
                simp [recordDelivery, hId, hType, pure_run,
                  hUnseen]
            | some text =>
                cases hMark : o.swallowed row.statements with
                | false =>
                    simp [recordDelivery, hId, hType, swallow,
                      after_swallows, hMark, hUnseen]
                | true =>
                    rw [← hAddresses]
                    simp [recordDelivery, hId, hType, swallow,
                      after_swallows, hMark, Db.seen,
                      insertProcessed]

end Resend

end SentinelCommand
