import Mathlib.Logic.Function.Basic
import SentinelCommand.Sync.Completeness

/-
  `push_table` while others write the table.

  Writers change the table in transactions. A statement
  stamps the row it inserts or updates from the clock, and
  nobody sees the row until its transaction commits; one
  that is rolled back never does. The sync loop awaits one
  run before the next, so a run that is to start while one
  is under way does not. Others write while a run selects a
  page and while the push of that page is under way. A row
  carries what else distinguishes its versions as data.
  Reads and writes of the two settings rows may fail, as
  their errors are swallowed.

  Key definitions include:
    * `Sync.Version`, `Sync.Store`, `Sync.Change`
    * `Sync.World`, `Sync.WorldEvent`
    * `Sync.World.select`, `Sync.World.confirm`
-/

--------------------
-- Versions
--------------------

namespace SentinelCommand

namespace Sync

structure Version (ι δ : Type) where
  row : Row ι
  data : δ
  deriving DecidableEq, Repr

/- The committed rows, one version for each primary key. -/
structure Store (ι δ : Type) where
  versions : List (Version ι δ)
  ids_nodup : (versions.map (fun v => v.row.id)).Nodup

/- What a statement of a transaction does to a row. -/
inductive Change (ι δ : Type) where
  | put (version : Version ι δ)
  | remove (id : ι)
  deriving DecidableEq, Repr

variable {ι δ : Type} [DecidableEq ι]

def Store.remove
    (store : Store ι δ)
    (id : ι) : Store ι δ where
  versions :=
    store.versions.filter (fun v => v.row.id ≠ id)
  ids_nodup :=
    store.ids_nodup.sublist (List.filter_sublist.map _)

/- An insert, or an update of the row with that key. -/
def Store.put
    (store : Store ι δ)
    (version : Version ι δ) : Store ι δ where
  versions :=
    (store.remove version.row.id).versions ++ [version]
  ids_nodup := by
    rw [List.map_append]
    refine List.nodup_append.mpr
      ⟨(store.remove version.row.id).ids_nodup,
        List.pairwise_singleton _ _, ?_⟩
    intro id hId last hLast
    rcases List.mem_map.mp hId with ⟨v, hV, rfl⟩
    rw [List.mem_singleton.mp hLast]
    simpa using (List.mem_filter.mp hV).2

def Store.change
    (store : Store ι δ) : Change ι δ → Store ι δ
| .put version => store.put version
| .remove id => store.remove id

/- A transaction commits. -/
def Store.commit
    (store : Store ι δ)
    (changes : List (Change ι δ)) : Store ι δ :=
  changes.foldl Store.change store

/- What the queries of `push_table` filter and order. -/
def Store.table (store : Store ι δ) : Table ι where
  rows := store.versions.map Version.row
  ids_nodup := by
    rw [List.map_map]
    exact store.ids_nodup

end Sync

--------------------
-- Writers and Runs
--------------------

namespace Sync

/-
  The clock, the committed rows, the changes of the open
  transaction of each connection, the two settings rows, the
  run under way, the page it is pushing (none when empty)
  and the versions the service has confirmed.
-/
structure World (ι δ : Type) where
  clock : Int
  store : Store ι δ
  writes : Nat → List (Change ι δ)
  saved : PageKey ι
  running : Option (Cycle ι)
  pushing : List (Version ι δ)
  sent : List (Version ι δ)

/- An install that never pushed this table. -/
def World.install
    {ι δ : Type}
    (store : Store ι δ)
    (clock : Int) : World ι δ where
  clock := clock
  store := store
  writes := fun _ => []
  saved := ⟨none, none⟩
  running := none
  pushing := []
  sent := []

inductive WorldEvent (ι δ : Type) where
  | tick (elapsed : Nat)
  | put (connection : Nat) (id : ι) (data : δ)
  | remove (connection : Nat) (id : ι)
  | commit (connection : Nat)
  | start (cursorRead idRead : Bool)
  | proceed (cursorSaved idSaved : Bool)

variable {ι δ : Type} [LinearOrder ι]

def Version.precedes (first second : Version ι δ) : Prop :=
  first.row.precedes second.row

instance : DecidableRel (@Version.precedes ι δ _) :=
  fun first second =>
    inferInstanceAs (Decidable (first.row.precedes second.row))

/- The WHERE clause of a page. -/
def Version.due
    (cycle : Cycle ι)
    (version : Version ι δ) : Bool :=
  version.row.past cycle.key &&
    decide (version.row.effective < cycle.settled)

namespace World

/- A statement of the connection's open transaction. -/
def statement
    (w : World ι δ)
    (connection : Nat)
    (change : Change ι δ) : World ι δ :=
  { w with
    writes :=
      Function.update w.writes connection
        (w.writes connection ++ [change]) }

def commit
    (w : World ι δ)
    (connection : Nat) : World ι δ :=
  { w with
    store := w.store.commit (w.writes connection)
    writes := Function.update w.writes connection [] }

/-
  `push_table` up to its loop: a half of the page key that
  cannot be read is absent.
-/
def start
    (w : World ι δ)
    (cursorRead idRead : Bool) : World ι δ :=
  match w.running with
  | some _ => w
  | none =>
      { w with
        running :=
          some
            { key :=
                { cursor :=
                    if cursorRead then w.saved.cursor else none
                  cursorId :=
                    if idRead then w.saved.cursorId else none }
              settled := settledAt w.clock } }

def page
    (w : World ι δ)
    (cycle : Cycle ι) : List (Version ι δ) :=
  Paging.page Version.precedes batchSize (Version.due cycle)
    w.store.versions

/- The query of the loop body; no rows end the run. -/
def select
    (w : World ι δ)
    (cycle : Cycle ι) : World ι δ :=
  { w with
    running :=
      if (w.page cycle).isEmpty then none else some cycle
    pushing := w.page cycle }

/- The rest of the loop body, from the confirmed push on. -/
def confirm
    (w : World ι δ)
    (cycle : Cycle ι)
    (last : Version ι δ)
    (cursorSaved idSaved : Bool) : World ι δ :=
  { w with
    saved := save w.saved last.row cursorSaved idSaved
    running :=
      if w.pushing.length < batchSize then
        none
      else
        some { cycle with key := last.row.pageKey }
    pushing := []
    sent := w.sent ++ w.pushing }

/- What the run under way does next. -/
def proceed
    (w : World ι δ)
    (cursorSaved idSaved : Bool) : World ι δ :=
  match w.running with
  | none => w
  | some cycle =>
      match w.pushing.getLast? with
      | none => w.select cycle
      | some last => w.confirm cycle last cursorSaved idSaved

def step (w : World ι δ) : WorldEvent ι δ → World ι δ
| .tick elapsed => { w with clock := w.clock + elapsed }
| .put connection id data =>
    w.statement connection
      (.put ⟨⟨id, some w.clock⟩, data⟩)
| .remove connection id =>
    w.statement connection (.remove id)
| .commit connection => w.commit connection
| .start cursorRead idRead => w.start cursorRead idRead
| .proceed cursorSaved idSaved =>
    w.proceed cursorSaved idSaved

end World

def WorldEvent.proceeds : WorldEvent ι δ → Bool
| .proceed _ _ => true
| _ => false

/- The change was stamped at most that long before. -/
def Change.inTime
    (clock : Int) : Change ι δ → Bool
| .put version =>
    decide
      (clock ≤ version.row.effective + seconds settleSeconds)
| .remove _ => true

/-
  A transaction that commits does so within
  `SETTLE_SECONDS` of each of its stamps.
-/
def CommitsInTime
    (w : World ι δ) : WorldEvent ι δ → Prop
| .commit connection =>
    ∀ change ∈ w.writes connection,
      change.inTime w.clock = true
| _ => True

instance
    (w : World ι δ) :
    (event : WorldEvent ι δ) →
      Decidable (CommitsInTime w event)
| .commit connection =>
    inferInstanceAs
      (Decidable
        (∀ change ∈ w.writes connection,
          change.inTime w.clock = true))
| .tick _ => isTrue trivial
| .put _ _ _ => isTrue trivial
| .remove _ _ => isTrue trivial
| .start _ _ => isTrue trivial
| .proceed _ _ => isTrue trivial

end Sync

--------------------
-- One Run Without Writers
--------------------

namespace Sync

variable {ι δ : Type} [LinearOrder ι]

/- The state of a run, without the clock and the writers. -/
def World.runState (w : World ι δ) : State ι where
  saved := w.saved
  running := w.running
  sent := w.sent.map Version.row

theorem page_rows
    (w : World ι δ)
    (cycle : Cycle ι) :
    (w.page cycle).map Version.row =
      page w.store.table cycle.key cycle.settled := by
  have hFilter :
      (w.store.versions.filter (Version.due cycle)).map
          Version.row =
        w.store.table.rows.filter
          (fun row =>
            row.past cycle.key &&
              decide (row.effective < cycle.settled)) := by
    rw [Store.table, List.filter_map]
    rfl
  rw [World.page, page, Paging.page, Paging.page,
    List.map_take,
    List.map_insertionSort Version.precedes Row.precedes
      Version.row _ (fun _ _ _ _ => Iff.rfl), hFilter]

/-
  When nobody writes between its query and its confirmed
  push, the loop body is the one over the table as it
  stands.
-/
theorem runState_proceed
    (w : World ι δ)
    (hReady : w.pushing = [])
    (cursorSaved idSaved : Bool) :
    ((w.proceed cursorSaved idSaved).proceed cursorSaved
        idSaved).runState =
      batch w.store.table w.runState cursorSaved idSaved := by
  cases hRunning : w.running with
  | none =>
      have hIdle : w.runState.running = none := hRunning
      simp only [World.proceed, batch, hRunning, hIdle]
  | some cycle =>
      have hSame : w.runState.running = some cycle := hRunning
      have hSelect :
          w.proceed cursorSaved idSaved = w.select cycle := by
        simp only [World.proceed, hRunning, hReady,
          List.getLast?_nil]
      have hLast :
          (page w.store.table cycle.key
              cycle.settled).getLast? =
            (w.page cycle).getLast?.map Version.row := by
        rw [← page_rows, List.getLast?_map]
      rw [hSelect]
      simp only [batch, hSame, hLast]
      cases hEnd : (w.page cycle).getLast? with
      | none =>
          have hNil := List.getLast?_eq_none_iff.mp hEnd
          simp only [World.proceed, World.select, hNil,
            List.isEmpty_nil, if_true, Option.map_none,
            World.runState]
      | some last =>
          have hSome : (w.page cycle).isEmpty = false := by
            cases hPage : w.page cycle with
            | nil =>
                rw [hPage] at hEnd
                cases hEnd
            | cons first rest => rfl
          simp only [World.proceed, World.select, hSome,
            Bool.false_eq_true, if_false, hEnd, World.confirm,
            World.runState, Option.map_some, ← page_rows,
            List.length_map, List.map_append]

end Sync

end SentinelCommand
