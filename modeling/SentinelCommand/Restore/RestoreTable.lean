import SentinelCommand.Json
import SentinelCommand.Lib.Relational
import SentinelCommand.Lib.Run
import SentinelCommand.Lib.Upsert

/-
  `sentinel-restore-from-cloud` for one mirrored table.

  The mirror holds each row as the object that `push_table`
  sent: the table's columns without the denied ones. The
  restore reads it page by page and writes each row with a
  statement of its own, so that a row that the database
  refuses is counted and stepped over.

  What the database decides by itself is taken as given: how
  a text is cast to a column's type, and which statements it
  refuses.

  Key definitions include:
    * `Sync.deniedColumns`, `Sync.envelopeData`
    * `Restore.Mirrored`
    * `Restore.statementOf`, `Restore.writeRow`
-/

--------------------
-- The Envelope
--------------------

namespace SentinelCommand

namespace Sync

/- Columns that never leave this install. -/
def deniedColumns (table : String) : List String :=
  if table = "camera_nodes" then
    ["api_key_hash"]
  else if table = "incident_evidence" then
    ["data"]
  else
    []

/- A table's columns, each with its type, less the denied. -/
def allowedColumns
    (table : String)
    (columns : List (String × String)) :
    List (String × String) :=
  columns.filter
    (fun column => column.1 ∉ deniedColumns table)

/- The `data` of a row's envelope. -/
def envelopeData
    (table : String)
    (columns : List (String × String))
    (value : String → Json) : Fields :=
  (allowedColumns table columns).map
    (fun column => (column.1, value column.1))

theorem lookup_envelopeData_of_denied
    {table column : String}
    (columns : List (String × String))
    (value : String → Json)
    (hDenied : column ∈ deniedColumns table) :
    (envelopeData table columns value).lookup column = none := by
  rw [List.lookup_eq_none_iff]
  intro field hField
  rcases List.mem_map.mp hField with ⟨allowed, hAllowed, rfl⟩
  have hOut := (List.mem_filter.mp hAllowed).2
  simp only [decide_not, Bool.not_eq_true',
    decide_eq_false_iff_not] at hOut
  rw [bne_iff_ne]
  rintro rfl
  exact hOut hDenied

end Sync

--------------------
-- Rows
--------------------

namespace Restore

open Relational (Cell)

abbrev Row : Type :=
  Upsert.Row String Cell

abbrev Table : Type :=
  Upsert.Table String Cell "id"

/-
  A row of the mirror, and what the table's column defaults
  give at the moment it is written.
-/
structure Mirrored (table : String) where
  data : Json
  defaults : String → Cell
  undenied :
    ∀ fields, data = .object fields →
      ∀ column ∈ Sync.deniedColumns table,
        fields.lookup column = none

/- What a push sent. -/
def Mirrored.pushed
    (table : String)
    (columns : List (String × String))
    (value : String → Json)
    (defaults : String → Cell) : Mirrored table where
  data := .object (Sync.envelopeData table columns value)
  defaults := defaults
  undenied := by
    rintro fields ⟨⟩ column hDenied
    exact
      Sync.lookup_envelopeData_of_denied columns value hDenied

/- The local columns with their types: none, or `id` too. -/
structure Columns where
  columns : List (String × String)
  id_known : columns ≠ [] → "id" ∈ columns.map Prod.fst

/- Each named column's value, and what a taken id leads to. -/
structure Statement where
  cells : List (String × Cell)
  conflict : Upsert.Conflict String

/-
  What is not the program's: the text of a JSON value, the
  cast `$n::type`, and the statements the database refuses.
-/
structure Platform where
  serialise : Json → String
  cast : String → String → Cell
  refuses : List Row → Statement → Option String

/- The row that a statement proposes. -/
def Statement.row
    (statement : Statement)
    (defaults : String → Cell) : Row :=
  fun column =>
    (statement.cells.lookup column).getD (defaults column)

/- `CAST(id AS TEXT)`. -/
def castText : Cell → Option String
| .null => none
| .int n => some (toString n)
| .text text => some text

end Restore

--------------------
-- Statements
--------------------

namespace Restore

open Relational (Cell)

def unrestorableCredential : String :=
  "restored-node-must-re-register"

def isNull : Json → Bool
| .null => true
| _ => false

namespace Platform

/- A JSON value as the text it is bound as. -/
def boundText (p : Platform) : Json → Option String
| .null => none
| .string text => some text
| other => some (p.serialise other)

def bind (p : Platform) (castTo : String) (value : Json) : Cell :=
  match p.boundText value with
  | none => .null
  | some text => p.cast castTo text

end Platform

/- A key that the mirrored row does not carry is left out. -/
def boundCells
    (p : Platform)
    (columns : List (String × String))
    (data : Fields) : List (String × Cell) :=
  columns.filterMap
    (fun column =>
      (data.lookup column.1).map
        (fun value => (column.1, p.bind column.2 value)))

/- A node's key is NOT NULL and has to hold something. -/
def withCredential
    (table : String)
    (cells : List (String × Cell)) : List (String × Cell) :=
  if
    table = "camera_nodes" ∧
      "api_key_hash" ∉ cells.map Prod.fst
  then
    cells ++ [("api_key_hash", .text unrestorableCredential)]
  else
    cells

/- What a taken id leads to. -/
def conflictOf
    (overwrite : Bool)
    (names : List String) : Upsert.Conflict String :=
  if overwrite then
    let sets := names.filter (fun name => name ≠ "id")
    if sets.isEmpty then .nothing else .update sets
  else
    .nothing

/- The statement that `write_row` builds. -/
def statementOf
    (p : Platform)
    (table : String)
    (columns : List (String × String))
    (data : Fields)
    (overwrite : Bool) : Except String Statement :=
  let bound := boundCells p columns data
  if bound.isEmpty then
    .error "the mirrored row had no column this build knows"
  else
    let cells := withCredential table bound
    .ok
      { cells := cells
        conflict :=
          conflictOf overwrite (cells.map Prod.fst) }

def writeRow
    (p : Platform)
    (name : String)
    (columns : List (String × String))
    (table : Table)
    (data : Fields)
    (defaults : String → Cell)
    (overwrite : Bool) : Except String Table :=
  match statementOf p name columns data overwrite with
  | .error message => .error message
  | .ok statement =>
      match p.refuses table.rows statement with
      | some message => .error message
      | none =>
          .ok
            (table.insert (statement.row defaults)
              statement.conflict)

end Restore

--------------------
-- One Table
--------------------

namespace Restore

/- The flags that a table's restore reads. -/
structure Args where
  dryRun : Bool
  overwrite : Bool
  deriving DecidableEq, Repr

structure Progress where
  table : Table
  written : Nat
  skipped : Nat
  failed : Nat

def Progress.start (table : Table) : Progress where
  table := table
  written := 0
  skipped := 0
  failed := 0

/- Ids are compared as texts. -/
def rowExists
    (p : Platform)
    (table : Table)
    (id : Json) : Bool :=
  let raw :=
    match id with
    | .string text => text
    | other => p.serialise other
  table.rows.any (fun row => castText (row "id") == some raw)

def restoreRow
    (p : Platform)
    (args : Args)
    {name : String}
    (columns : Columns)
    (progress : Progress)
    (row : Mirrored name) : Progress :=
  match row.data.asObject with
  | none =>
      { progress with skipped := progress.skipped + 1 }
  | some data =>
      match (data.lookup "id").filter (fun id => !isNull id) with
      | none =>
          { progress with skipped := progress.skipped + 1 }
      | some id =>
          if columns.columns.isEmpty then
            { progress with written := progress.written + 1 }
          else if
            !args.overwrite && rowExists p progress.table id
          then
            { progress with skipped := progress.skipped + 1 }
          else if args.dryRun then
            { progress with written := progress.written + 1 }
          else
            match
              writeRow p name columns.columns progress.table
                data row.defaults args.overwrite
            with
            | .ok table =>
                { progress with
                  table := table
                  written := progress.written + 1 }
            | .error _ =>
                { progress with failed := progress.failed + 1 }

/- The mirror's pages in turn, each row in its own turn. -/
def restoreTable
    (p : Platform)
    (args : Args)
    {name : String}
    (columns : Columns)
    (table : Table)
    (pages : List (List (Mirrored name))) : Progress :=
  pages.foldl
    (fun progress page =>
      page.foldl (restoreRow p args columns) progress)
    (Progress.start table)

theorem restoreTable_eq_exec
    (p : Platform)
    (args : Args)
    {name : String}
    (columns : Columns)
    (table : Table)
    (pages : List (List (Mirrored name))) :
    restoreTable p args columns table pages =
      Run.exec (restoreRow p args columns)
        (Progress.start table) pages.flatten := by
  rw [restoreTable, Run.exec, List.foldl_flatten]

end Restore

end SentinelCommand
