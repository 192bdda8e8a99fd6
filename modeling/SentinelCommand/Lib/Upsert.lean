import Mathlib.Data.List.Nodup

/-
  Keyed tables and `INSERT … ON CONFLICT`.

  A row assigns a value to each column, and no two rows of a
  table have the same key. An insert whose key is taken
  leaves the table as it is or copies some columns of the
  rejected row into the one that is there.

  Key definitions include:
    * `Upsert.Table`
    * `Upsert.overlay`
    * `Upsert.Table.insert`

  Key theorems include:
    * `Upsert.mem_insert_of_mem`
    * `Upsert.cases_of_mem_insert`
    * `Upsert.key_mem_insert`
-/

--------------------
-- Tables
--------------------

namespace Upsert

variable {Column Value : Type}

abbrev Row (Column Value : Type) : Type :=
  Column → Value

structure Table (Column Value : Type) (key : Column) where
  rows : List (Row Column Value)
  keys_nodup : (rows.map (fun row => row key)).Nodup

def Table.empty (key : Column) : Table Column Value key where
  rows := []
  keys_nodup := List.nodup_nil

/- `DELETE … WHERE key = $1`. -/
def Table.delete
    {key : Column}
    [DecidableEq Value]
    (table : Table Column Value key)
    (value : Value) : Table Column Value key where
  rows := table.rows.filter (fun row => row key ≠ value)
  keys_nodup :=
    table.keys_nodup.sublist (List.filter_sublist.map _)

/- `DO NOTHING`, or `DO UPDATE SET` of these columns. -/
inductive Conflict (Column : Type) where
  | nothing
  | update (columns : List Column)
  deriving DecidableEq, Repr

def Conflict.columns : Conflict Column → List Column
| .nothing => []
| .update columns => columns

variable [DecidableEq Column] [DecidableEq Value]

/- These columns come from the rejected row. -/
def overlay
    (columns : List Column)
    (row excluded : Row Column Value) : Row Column Value :=
  fun column =>
    if column ∈ columns then excluded column else row column

/- What becomes of a row when another one is inserted. -/
def rewritten
    (key : Column)
    (conflict : Conflict Column)
    (excluded row : Row Column Value) : Row Column Value :=
  if row key = excluded key then
    overlay conflict.columns row excluded
  else
    row

theorem rewritten_key
    (key : Column)
    (conflict : Conflict Column)
    (excluded row : Row Column Value) :
    rewritten key conflict excluded row key = row key := by
  unfold rewritten overlay
  split
  · rename_i hSame
    dsimp only
    split
    · exact hSame.symm
    · rfl
  · rfl

theorem map_key_rewritten
    (key : Column)
    (conflict : Conflict Column)
    (excluded : Row Column Value)
    (rows : List (Row Column Value)) :
    (rows.map (rewritten key conflict excluded)).map
        (fun row => row key) =
      rows.map (fun row => row key) := by
  rw [List.map_map]
  exact
    List.map_congr_left
      (fun row _ => rewritten_key key conflict excluded row)

theorem rewritten_of_ne
    {key : Column}
    {conflict : Conflict Column}
    {excluded row : Row Column Value}
    (hNe : row key ≠ excluded key) :
    rewritten key conflict excluded row = row :=
  if_neg hNe

theorem rewritten_nothing
    (key : Column)
    (excluded row : Row Column Value) :
    rewritten key .nothing excluded row = row := by
  unfold rewritten
  split
  · funext column
    exact if_neg List.not_mem_nil
  · rfl

/- A column that is not set keeps its value. -/
theorem rewritten_of_not_mem
    {key column : Column}
    {conflict : Conflict Column}
    (excluded row : Row Column Value)
    (hOut : column ∉ conflict.columns) :
    rewritten key conflict excluded row column =
      row column := by
  unfold rewritten overlay
  split
  · exact if_neg hOut
  · rfl

theorem rewritten_of_mem
    {key column : Column}
    {conflict : Conflict Column}
    {excluded row : Row Column Value}
    (hSame : row key = excluded key)
    (hIn : column ∈ conflict.columns) :
    rewritten key conflict excluded row column =
      excluded column := by
  rw [rewritten, if_pos hSame]
  exact if_pos hIn

end Upsert

--------------------
-- Inserts
--------------------

namespace Upsert

variable {Column Value : Type}
variable {key : Column}
variable {table : Table Column Value key}
variable {row : Row Column Value}
variable {conflict : Conflict Column}

theorem key_ne_of_free
    (hFree : row key ∉ table.rows.map (fun r => r key))
    {other : Row Column Value}
    (hMem : other ∈ table.rows) :
    other key ≠ row key := by
  intro hSame
  exact
    hFree (hSame ▸
      List.mem_map_of_mem (f := fun r => r key) hMem)

variable [DecidableEq Column] [DecidableEq Value]

/- `INSERT … ON CONFLICT (key)`. -/
def Table.insert
    (table : Table Column Value key)
    (row : Row Column Value)
    (conflict : Conflict Column) : Table Column Value key :=
  if hTaken : row key ∈ table.rows.map (fun r => r key) then
    { rows := table.rows.map (rewritten key conflict row)
      keys_nodup := by
        rw [map_key_rewritten]
        exact table.keys_nodup }
  else
    { rows := table.rows ++ [row]
      keys_nodup := by
        rw [List.map_append, List.map_singleton]
        exact
          List.nodup_append.mpr
            ⟨table.keys_nodup, List.pairwise_singleton _ _,
              fun a hA b hB => by
                rw [List.mem_singleton.mp hB]
                rintro rfl
                exact hTaken hA⟩ }

theorem rows_insert_of_taken
    (hTaken : row key ∈ table.rows.map (fun r => r key)) :
    (table.insert row conflict).rows =
      table.rows.map (rewritten key conflict row) := by
  rw [Table.insert, dif_pos hTaken]

theorem rows_insert_of_free
    (hFree : row key ∉ table.rows.map (fun r => r key)) :
    (table.insert row conflict).rows = table.rows ++ [row] := by
  rw [Table.insert, dif_neg hFree]

/- Every row is still there, as it was rewritten. -/
theorem mem_insert_of_mem
    {other : Row Column Value}
    (hMem : other ∈ table.rows) :
    rewritten key conflict row other ∈
      (table.insert row conflict).rows := by
  by_cases hTaken : row key ∈ table.rows.map (fun r => r key)
  · rw [rows_insert_of_taken hTaken]
    exact List.mem_map_of_mem hMem
  · rw [rows_insert_of_free hTaken,
      rewritten_of_ne (key_ne_of_free hTaken hMem)]
    exact List.mem_append_left _ hMem

/- A row is one of before, or the one with a new key. -/
theorem cases_of_mem_insert
    {next : Row Column Value}
    (hMem : next ∈ (table.insert row conflict).rows) :
    (∃ other ∈ table.rows,
      next = rewritten key conflict row other) ∨
      (next = row ∧
        ∀ other ∈ table.rows, other key ≠ row key) := by
  by_cases hTaken : row key ∈ table.rows.map (fun r => r key)
  · rw [rows_insert_of_taken hTaken] at hMem
    rcases List.mem_map.mp hMem with ⟨other, hOther, rfl⟩
    exact Or.inl ⟨other, hOther, rfl⟩
  · rw [rows_insert_of_free hTaken] at hMem
    rcases List.mem_append.mp hMem with hOld | hNew
    · have hSame :
          rewritten key conflict row next = next :=
        rewritten_of_ne (key_ne_of_free hTaken hOld)
      exact Or.inl ⟨next, hOld, hSame.symm⟩
    · exact
        Or.inr
          ⟨List.mem_singleton.mp hNew,
            fun _ hOther => key_ne_of_free hTaken hOther⟩

/- A key is that of the inserted row or was there. -/
theorem key_mem_insert
    {value : Value} :
    value ∈
        (table.insert row conflict).rows.map
          (fun r => r key) ↔
      value = row key ∨
        value ∈ table.rows.map (fun r => r key) := by
  by_cases hTaken : row key ∈ table.rows.map (fun r => r key)
  · rw [rows_insert_of_taken hTaken, map_key_rewritten]
    constructor
    · exact Or.inr
    · rintro (rfl | hIn)
      · exact hTaken
      · exact hIn
  · rw [rows_insert_of_free hTaken, List.map_append,
      List.map_singleton, List.mem_append,
      List.mem_singleton, or_comm]

end Upsert
