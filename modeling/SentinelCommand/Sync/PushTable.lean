import Mathlib.Order.Basic
import SentinelCommand.Clock
import SentinelCommand.Lib.Paging
import SentinelCommand.Lib.Run

/-
  The one-way mirror: `push_table` of `sync.rs` for one
  syncable table.

  A cycle pages the table by (effective cursor, id) and
  after each confirmed push writes the page key to two
  settings rows, one statement each, with both errors
  swallowed. Ids are of any linear order, since a table's
  key is an integer or a text. Of a row the model keeps what
  the query filters and orders by; the rows pushed so far
  stand for the requests the service confirmed.

  Key definitions include:
    * `Sync.Row.past`
    * `Sync.page`
    * `Sync.step`
-/

--------------------
-- Tables and Keys
--------------------

namespace SentinelCommand

namespace Sync

def batchSize : Nat := 500

def settleSeconds : Int := 10

/- A row's primary key and its cursor column. -/
structure Row (ι : Type) where
  id : ι
  cursor : Option Int
  deriving DecidableEq, Repr

/- A table has one row for each primary key. -/
structure Table (ι : Type) where
  rows : List (Row ι)
  ids_nodup : (rows.map Row.id).Nodup

/- The page key: both halves are absent at first. -/
structure PageKey (ι : Type) where
  cursor : Option Int
  cursorId : Option ι
  deriving DecidableEq, Repr

variable {ι : Type} [LinearOrder ι]

/- A NULL cursor column compares as the epoch. -/
def Row.effective (row : Row ι) : Int :=
  row.cursor.getD 0

/- `ORDER BY effective ASC, id ASC`. -/
def Row.precedes (first second : Row ι) : Prop :=
  first.effective < second.effective ∨
    (first.effective = second.effective ∧
      first.id ≤ second.id)

instance : DecidableRel (@Row.precedes ι _) :=
  fun first second =>
    inferInstanceAs
      (Decidable
        (first.effective < second.effective ∨
          (first.effective = second.effective ∧
            first.id ≤ second.id)))

/- The tiebreak `t.id > $2`, which no id passes for NULL. -/
def idPast (cursorId : Option ι) (id : ι) : Bool :=
  match cursorId with
  | none => false
  | some last => decide (last < id)

/- The key half of the query's WHERE clause. -/
def Row.past (row : Row ι) (key : PageKey ι) : Bool :=
  match key.cursor with
  | none => true
  | some last =>
      decide (last < row.effective) ||
        (decide (row.effective = last) &&
          idPast key.cursorId row.id)

/- One page of settled rows past the key. -/
def page
    (table : Table ι)
    (key : PageKey ι)
    (settled : Int) : List (Row ι) :=
  Paging.page Row.precedes batchSize
    (fun row =>
      row.past key && decide (row.effective < settled))
    table.rows

--------------------
-- Cycles
--------------------

/- What a running cycle holds in memory. -/
structure Cycle (ι : Type) where
  key : PageKey ι
  settled : Int
  deriving DecidableEq, Repr

/-
  The two settings rows, the cycle under way and the rows
  the service has confirmed.
-/
structure State (ι : Type) where
  saved : PageKey ι
  running : Option (Cycle ι)
  sent : List (Row ι)
  deriving DecidableEq, Repr

/- An install that never pushed this table. -/
def fresh {ι : Type} : State ι :=
  { saved := ⟨none, none⟩, running := none, sent := [] }

/-
  A cycle starts, or the loop body runs once with its push
  confirmed and each settings write stored or not. A cycle
  that starts while another is under way follows a stop: the
  process died, or a query or a push failed.
-/
inductive Action where
  | start (now : Int)
  | batch (cursorSaved idSaved : Bool)
  deriving DecidableEq, Repr

/- The threshold of a cycle that starts at `now`. -/
def settledAt (now : Int) : Int :=
  now - seconds settleSeconds

/- `push_table` up to its loop. -/
def start (state : State ι) (now : Int) : State ι :=
  { state with
    running :=
      some { key := state.saved, settled := settledAt now } }

/- The page key of a pushed batch. -/
def Row.pageKey (last : Row ι) : PageKey ι :=
  { cursor := some last.effective, cursorId := some last.id }

/- The two settings writes after a confirmed push. -/
def save
    (saved : PageKey ι)
    (last : Row ι)
    (cursorSaved idSaved : Bool) : PageKey ι :=
  { cursor :=
      if cursorSaved then some last.effective else saved.cursor
    cursorId :=
      if idSaved then some last.id else saved.cursorId }

/- The loop body of `push_table`. -/
def batch
    (table : Table ι)
    (state : State ι)
    (cursorSaved idSaved : Bool) : State ι :=
  match state.running with
  | none => state
  | some cycle =>
      let rows := page table cycle.key cycle.settled
      match rows.getLast? with
      | none => { state with running := none }
      | some last =>
          { saved := save state.saved last cursorSaved idSaved
            running :=
              if rows.length < batchSize then
                none
              else
                some { cycle with key := last.pageKey }
            sent := state.sent ++ rows }

def step
    (table : Table ι)
    (state : State ι) : Action → State ι
| .start now => start state now
| .batch cursorSaved idSaved =>
    batch table state cursorSaved idSaved

--------------------
-- Keys in Order
--------------------

instance : Std.Total (@Row.precedes ι _) where
  total := by
    intro first second
    unfold Row.precedes
    rcases Int.lt_trichotomy first.effective second.effective
      with hLess | hSame | hMore
    · exact Or.inl (Or.inl hLess)
    · rcases le_total first.id second.id with hId | hId
      · exact Or.inl (Or.inr ⟨hSame, hId⟩)
      · exact Or.inr (Or.inr ⟨hSame.symm, hId⟩)
    · exact Or.inr (Or.inl hMore)

instance : IsTrans (Row ι) Row.precedes where
  trans := by
    intro first second third hFirst hSecond
    unfold Row.precedes at *
    rcases hFirst with hFirst | ⟨hSame, hId⟩
    · left
      omega
    · rcases hSecond with hSecond | ⟨hAlso, hNext⟩
      · left
        omega
      · exact Or.inr ⟨hSame.trans hAlso, hId.trans hNext⟩

/- Rows of a table that tie on the page key are one row. -/
theorem precedes_antisymm
    (table : Table ι)
    (first : Row ι)
    (hFirst : first ∈ table.rows)
    (second : Row ι)
    (hSecond : second ∈ table.rows)
    (hThere : first.precedes second)
    (hBack : second.precedes first) :
    first = second := by
  have hId : first.id = second.id := by
    rcases hThere with hLess | ⟨hSame, hLe⟩
    · rcases hBack with hMore | ⟨hAlso, _⟩
      · omega
      · omega
    · rcases hBack with hMore | ⟨_, hGe⟩
      · omega
      · exact le_antisymm hLe hGe
  exact
    List.inj_on_of_nodup_map table.ids_nodup hFirst hSecond hId

/- Past the key of a row is strictly after that row. -/
theorem past_pageKey_iff
    (row last : Row ι) :
    row.past last.pageKey = true ↔ ¬ row.precedes last := by
  simp only [Row.past, Row.pageKey, idPast, Row.precedes,
    Bool.or_eq_true, Bool.and_eq_true, decide_eq_true_eq,
    not_or, not_and, not_le, not_lt]
  constructor
  · rintro (hMore | ⟨hSame, hId⟩)
    · exact ⟨by omega, by omega⟩
    · exact ⟨by omega, fun _ => hId⟩
  · rintro ⟨hLe, hId⟩
    by_cases hSame : row.effective = last.effective
    · exact Or.inr ⟨hSame, hId hSame⟩
    · left
      omega

theorem not_past_pageKey_self
    (row : Row ι) :
    row.past row.pageKey = false := by
  by_contra hAfter
  have hPrecedes : ¬ row.precedes row :=
    (past_pageKey_iff row row).mp (by simpa using hAfter)
  exact hPrecedes (Or.inr ⟨rfl, le_refl row.id⟩)

/- The key of a row past a key is past that key too. -/
theorem past_of_past_pageKey
    {key : PageKey ι}
    {row last : Row ι}
    (hLast : last.past key = true)
    (hAfter : row.past last.pageKey = true) :
    row.past key = true := by
  cases hCursor : key.cursor with
  | none => simp [Row.past, hCursor]
  | some cursor =>
      cases hId : key.cursorId with
      | none =>
          simp only [Row.past, hCursor, hId, Row.pageKey,
            idPast, Bool.or_eq_true, Bool.and_eq_true,
            decide_eq_true_eq, Bool.false_eq_true, and_false,
            or_false] at hLast hAfter ⊢
          omega
      | some id =>
          simp only [Row.past, hCursor, hId, Row.pageKey,
            idPast, Bool.or_eq_true, Bool.and_eq_true,
            decide_eq_true_eq] at hLast hAfter ⊢
          rcases hAfter with hMore | ⟨hSame, hNext⟩
          · left
            omega
          · rcases hLast with hLess | ⟨hTie, hOld⟩
            · left
              omega
            · exact
                Or.inr ⟨hSame.trans hTie, hOld.trans hNext⟩

/- A row past a key is not before its cursor. -/
theorem cursor_le_of_past
    {row : Row ι}
    {key : PageKey ι}
    (hPast : row.past key = true)
    {last : Int}
    (hCursor : key.cursor = some last) :
    last ≤ row.effective := by
  simp only [Row.past, hCursor, Bool.or_eq_true,
    Bool.and_eq_true, decide_eq_true_eq] at hPast
  omega

/- A row that is not past a key is not after its cursor. -/
theorem le_cursor_of_not_past
    {row : Row ι}
    {key : PageKey ι}
    (hPast : row.past key = false) :
    ∃ last, key.cursor = some last ∧
      row.effective ≤ last := by
  cases hCursor : key.cursor with
  | none => simp [Row.past, hCursor] at hPast
  | some last =>
      simp only [Row.past, hCursor, Bool.or_eq_false_iff,
        decide_eq_false_iff_not] at hPast
      exact ⟨last, rfl, by omega⟩

theorem mem_page
    {table : Table ι}
    {key : PageKey ι}
    {settled : Int}
    {row : Row ι}
    (hPage : row ∈ page table key settled) :
    row ∈ table.rows ∧ row.past key = true ∧
      row.effective < settled := by
  rcases Paging.mem_of_mem_page hPage with ⟨hMem, hKeep⟩
  simp only [Bool.and_eq_true, decide_eq_true_eq] at hKeep
  exact ⟨hMem, hKeep⟩

end Sync

end SentinelCommand
