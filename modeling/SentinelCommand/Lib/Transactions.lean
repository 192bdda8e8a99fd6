import Mathlib.Data.List.Nodup
import Mathlib.Data.List.Perm.Basic
import SentinelCommand.Lib.Interleaving

/-
  Transactions over a table with a unique key, with
  savepoints, and with locks that are held to the end.

  A row is seen by the others once its transaction commits.
  An insert waits for an open transaction that has written
  its key, and fails when the key is taken. After a failed
  statement inserts fail as well and a commit stores nothing,
  up to a rollback to a savepoint before it.

  A transaction is known by its number, and each list of the
  store says whose its entries are.

  Key definitions include:
    * `Transactions.Store`
    * `Transactions.lockFor`, `Transactions.read`
    * `Transactions.insertRow`
    * `Transactions.run`
-/

--------------------
-- Entries
--------------------

namespace Transactions

variable {α β : Type} {tx other : Nat}

/- The entries of one transaction. -/
def mine (tx : Nat) (entries : List (Nat × α)) : List α :=
  (entries.filter (·.1 = tx)).map (·.2)

def tagged (tx : Nat) (items : List α) : List (Nat × α) :=
  items.map (tx, ·)

/- The transaction keeps only such entries. -/
def keepMine
    (tx : Nat)
    (keep : α → Bool)
    (entries : List (Nat × α)) : List (Nat × α) :=
  entries.filter (fun entry => entry.1 ≠ tx || keep entry.2)

def mapMine
    (tx : Nat)
    (f : α → α)
    (entries : List (Nat × α)) : List (Nat × α) :=
  entries.map
    (fun entry =>
      if entry.1 = tx then (entry.1, f entry.2) else entry)

theorem mem_mine
    {entries : List (Nat × α)}
    {item : α} :
    item ∈ mine tx entries ↔ (tx, item) ∈ entries := by
  simp [mine]

@[simp]
theorem mine_append (first second : List (Nat × α)) :
    mine tx (first ++ second) =
      mine tx first ++ mine tx second := by
  simp [mine]

@[simp]
theorem mine_tagged_self (items : List α) :
    mine tx (tagged tx items) = items := by
  induction items with
  | nil => rfl
  | cons item rest ih =>
      simpa [mine, tagged] using ih

@[simp]
theorem map_snd_tagged (items : List α) :
    (tagged tx items).map (·.2) = items := by
  simp [tagged, Function.comp_def]

theorem mine_tagged_ne
    (hOther : other ≠ tx)
    (items : List α) :
    mine other (tagged tx items) = [] := by
  simp [mine, tagged, Ne.symm hOther]

@[simp]
theorem mine_keepMine_self
    (keep : α → Bool)
    (entries : List (Nat × α)) :
    mine tx (keepMine tx keep entries) =
      (mine tx entries).filter keep := by
  unfold mine keepMine
  rw [List.filter_filter, List.filter_map, List.filter_filter]
  congr 1
  apply List.filter_congr
  intro entry _
  by_cases hMine : entry.1 = tx
  · simp [hMine]
  · simp [hMine]

theorem mine_keepMine_ne
    (hOther : other ≠ tx)
    (keep : α → Bool)
    (entries : List (Nat × α)) :
    mine other (keepMine tx keep entries) =
      mine other entries := by
  unfold mine keepMine
  rw [List.filter_filter]
  congr 1
  apply List.filter_congr
  intro entry _
  by_cases hMine : entry.1 = other
  · simp [hMine, hOther]
  · simp [hMine]

@[simp]
theorem mine_mapMine_self
    (f : α → α)
    (entries : List (Nat × α)) :
    mine tx (mapMine tx f entries) =
      (mine tx entries).map f := by
  unfold mine mapMine
  rw [List.filter_map, List.map_map, List.map_map]
  induction entries with
  | nil => rfl
  | cons entry rest ih =>
      by_cases hMine : entry.1 = tx
      · simpa [List.filter_cons, hMine] using ih
      · simpa [List.filter_cons, hMine] using ih

theorem mine_mapMine_ne
    (hOther : other ≠ tx)
    (f : α → α)
    (entries : List (Nat × α)) :
    mine other (mapMine tx f entries) =
      mine other entries := by
  unfold mine mapMine
  induction entries with
  | nil => rfl
  | cons entry rest ih =>
      by_cases hMine : entry.1 = tx
      · simpa [List.filter_cons, hMine, Ne.symm hOther] using ih
      · by_cases hSame : entry.1 = other
        · simpa [List.filter_cons, hMine, hSame, hOther]
            using ih
        · simpa [List.filter_cons, hMine, hSame] using ih

/- A projection that the map leaves alone. -/
theorem map_mapMine
    {g : α → β}
    {f : α → α}
    (hSame : ∀ item, g (f item) = g item)
    (entries : List (Nat × α)) :
    (mapMine tx f entries).map (fun entry => g entry.2) =
      entries.map (fun entry => g entry.2) := by
  unfold mapMine
  rw [List.map_map]
  apply List.map_congr_left
  intro entry _
  by_cases hMine : entry.1 = tx
  · simp [hMine, hSame]
  · simp [hMine]

theorem keepMine_sublist
    (tx : Nat)
    (keep : α → Bool)
    (entries : List (Nat × α)) :
    List.Sublist (keepMine tx keep entries) entries :=
  List.filter_sublist

/- Those of a transaction, and those of all the others. -/
theorem mine_perm
    (tx : Nat)
    (entries : List (Nat × α)) :
    List.Perm
      (mine tx entries ++
        (keepMine tx (fun _ => false) entries).map (·.2))
      (entries.map (·.2)) := by
  have hSplit :=
    List.filter_append_perm
      (fun entry : Nat × α => decide (entry.1 = tx)) entries
  have hRest :
      keepMine tx (fun _ => false) entries =
        entries.filter (fun entry => !decide (entry.1 = tx)) := by
    unfold keepMine
    simp
  rw [hRest]
  unfold mine
  rw [← List.map_append]
  exact hSplit.map _

end Transactions

--------------------
-- Stores
--------------------

namespace Transactions

inductive Inserted where
  | done
  | violation
  | failed
  deriving DecidableEq, Repr

/-
  The committed rows and which transaction stored which of
  them; then, of the open transactions, the rows written at
  each savepoint, the savepoints within which a statement
  failed, and the locks; and what the callers were answered.
-/
structure Store (Row Lock Answer : Type) where
  rows : List Row
  stored : List (Nat × Row)
  writes : List (Nat × Nat × Row)
  failed : List (Nat × Nat)
  locks : List (Nat × Lock)
  answers : List (Nat × Answer)

variable {Row Key Lock Answer : Type}
variable [DecidableEq Key] [DecidableEq Lock]

namespace Store

/- No transaction yet. -/
def start (rows : List Row) : Store Row Lock Answer where
  rows := rows
  stored := []
  writes := []
  failed := []
  locks := []
  answers := []

/- What the transaction has written, at any savepoint. -/
def written
    (s : Store Row Lock Answer)
    (tx : Nat) : List Row :=
  (mine tx s.writes).map (·.2)

/- The rows that the transaction's own reads see. -/
def visible
    (s : Store Row Lock Answer)
    (tx : Nat) : List Row :=
  s.rows ++ s.written tx

/- The lock is not held by another transaction. -/
def freeFor
    (s : Store Row Lock Answer)
    (tx : Nat)
    (lock : Lock) : Bool :=
  s.locks.all (fun held => held.1 = tx || held.2 ≠ lock)

def acquire
    (s : Store Row Lock Answer)
    (tx : Nat)
    (lock : Lock) : Store Row Lock Answer :=
  { s with locks := s.locks ++ tagged tx [lock] }

/- Another open transaction has written the key. -/
def waits
    (key : Row → Key)
    (s : Store Row Lock Answer)
    (tx : Nat)
    (row : Row) : Bool :=
  s.writes.any
    (fun write => write.1 ≠ tx && key write.2.2 = key row)

/- A row with the key is there, as the transaction sees it. -/
def taken
    (key : Row → Key)
    (s : Store Row Lock Answer)
    (tx : Nat)
    (row : Row) : Bool :=
  (s.visible tx).any (fun seen => key seen = key row)

def write
    (s : Store Row Lock Answer)
    (tx level : Nat)
    (row : Row) : Store Row Lock Answer :=
  { s with writes := s.writes ++ tagged tx [(level, row)] }

def fail
    (s : Store Row Lock Answer)
    (tx level : Nat) : Store Row Lock Answer :=
  { s with failed := s.failed ++ tagged tx [level] }

/-
  `fails` is a failure of its own, which no other transaction
  has to be waited for.
-/
def insert
    (key : Row → Key)
    (s : Store Row Lock Answer)
    (tx level : Nat)
    (row : Row)
    (fails : Bool) :
    Option (Store Row Lock Answer × Inserted) :=
  if fails || !(mine tx s.failed).isEmpty then
    some (s.fail tx level, .failed)
  else if s.waits key tx row then
    none
  else if s.taken key tx row then
    some (s.fail tx level, .violation)
  else
    some (s.write tx level row, .done)

/- `ROLLBACK TO SAVEPOINT`. -/
def rollbackTo
    (s : Store Row Lock Answer)
    (tx level : Nat) : Store Row Lock Answer :=
  { s with
    writes := keepMine tx (fun w => w.1 < level) s.writes
    failed := keepMine tx (fun l => l < level) s.failed }

/- What was written within is the enclosing savepoint's. -/
def release
    (s : Store Row Lock Answer)
    (tx level : Nat) : Store Row Lock Answer :=
  { s with
    writes :=
      mapMine tx (fun w => (min w.1 (level - 1), w.2))
        s.writes }

/- Nothing is left of the transaction. -/
def drop
    (s : Store Row Lock Answer)
    (tx : Nat) : Store Row Lock Answer :=
  { s with
    writes := keepMine tx (fun _ => false) s.writes
    failed := keepMine tx (fun _ => false) s.failed
    locks := keepMine tx (fun _ => false) s.locks }

/- A failed transaction is rolled back instead. -/
def commit
    (s : Store Row Lock Answer)
    (tx : Nat) : Store Row Lock Answer :=
  if (mine tx s.failed).isEmpty then
    { s.drop tx with
      rows := s.rows ++ s.written tx
      stored := s.stored ++ tagged tx (s.written tx) }
  else
    s.drop tx

def answer
    (s : Store Row Lock Answer)
    (tx : Nat)
    (answer : Answer) : Store Row Lock Answer :=
  { s with answers := s.answers ++ tagged tx [answer] }

end Store

end Transactions

--------------------
-- Statements
--------------------

namespace Transactions

open Interleaving

variable {α Row Key Lock Answer : Type}
variable [DecidableEq Key] [DecidableEq Lock]

abbrev TxThread (Row Lock Answer : Type) : Type :=
  Thread (Store Row Lock Answer) Unit

/- Waits for the lock, which is held to the end. -/
def lockFor
    (tx : Nat)
    (lock : Lock)
    (rest : TxThread Row Lock Answer) :
    TxThread Row Lock Answer :=
  await () (fun s => s.freeFor tx lock)
    (fun s => s.acquire tx lock) rest

def read
    (f : Store Row Lock Answer → α)
    (next : α → TxThread Row Lock Answer) :
    TxThread Row Lock Answer :=
  atomic () (fun s => (s, f s)) next

/- Nothing while the insert waits. -/
def insertRow
    (key : Row → Key)
    (tx level : Nat)
    (row : Row)
    (fails : Bool)
    (next : Inserted → TxThread Row Lock Answer) :
    TxThread Row Lock Answer :=
  .act ()
    (fun s =>
      (s.insert key tx level row fails).map
        (fun result => (result.1, next result.2)))

/- Whatever changes the store and is never waited for. -/
def run
    (effect : Store Row Lock Answer → Store Row Lock Answer)
    (rest : TxThread Row Lock Answer) :
    TxThread Row Lock Answer :=
  atomic () (fun s => (effect s, ())) (fun _ => rest)

end Transactions
