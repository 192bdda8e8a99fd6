import SentinelCommand.Restore.RestoreTable

/-
  What a restore leaves alone.

  Without `--overwrite` a row that exists is never touched.
  With it, the statement sets the columns that the mirrored
  row carries and, for a node, the credential that no mirror
  carries: the column that has to hold something in a new
  row is set in one that exists too.

  Main declarations:
    * `Restore.Harmless`
    * `Restore.restore_harmless_iff`
    * `Restore.overwrite_replaces_key`
-/

--------------------
-- The Statement That Is Executed
--------------------

namespace SentinelCommand

namespace Restore

open Relational (Cell)

variable {p : Platform}
variable {args : Args}
variable {name : String}
variable {columns : Columns}
variable {table : Table}
variable {row : Mirrored name}
variable {statement : Statement}

/- The id that a mirrored row is written under. -/
def Mirrored.idCell
    (p : Platform)
    (columns : Columns)
    (row : Mirrored name) : Option Cell :=
  row.data.asObject.bind
    (fun data =>
      (boundCells p columns.columns data).lookup "id")

/- The mirrored row has a value for the column. -/
def Mirrored.Carries
    (row : Mirrored name)
    (column : String) : Prop :=
  ∃ data, row.data.asObject = some data ∧
    (data.lookup column).isSome = true

/-
  The statement that is executed for the row, if one is and
  the database accepts it.
-/
def executed
    (p : Platform)
    (args : Args)
    (columns : Columns)
    (table : Table)
    (row : Mirrored name) : Option Statement :=
  row.data.asObject.bind (fun data =>
    ((data.lookup "id").filter (fun id => !isNull id)).bind
      (fun id =>
        if
          columns.columns.isEmpty ||
            (!args.overwrite && rowExists p table id) ||
            args.dryRun
        then
          none
        else
          (statementOf p name columns.columns data
            args.overwrite).toOption.filter
              (fun statement =>
                (p.refuses table.rows statement).isNone)))

/- Everything else leaves the table as it is. -/
theorem table_restoreRow
    (p : Platform)
    (args : Args)
    (columns : Columns)
    (progress : Progress)
    (row : Mirrored name) :
    (restoreRow p args columns progress row).table =
      match executed p args columns progress.table row with
      | none => progress.table
      | some statement =>
          progress.table.insert (statement.row row.defaults)
            statement.conflict := by
  unfold restoreRow executed
  cases row.data.asObject with
  | none => rfl
  | some data =>
      rw [Option.bind_some]
      dsimp only
      cases (data.lookup "id").filter (fun id => !isNull id) with
      | none => rfl
      | some id =>
          rw [Option.bind_some]
          dsimp only
          cases hEmpty : columns.columns.isEmpty with
          | true => rfl
          | false =>
              cases hFound :
                  !args.overwrite &&
                    rowExists p progress.table id with
              | true => rfl
              | false =>
                  cases hDry : args.dryRun with
                  | true => rfl
                  | false =>
                      simp only [writeRow]
                      cases
                          statementOf p name columns.columns
                            data args.overwrite with
                      | error message => rfl
                      | ok statement =>
                          cases hRefuses :
                              p.refuses progress.table.rows
                                statement with
                          | some message =>
                              simp only [Except.toOption,
                                Option.filter, hRefuses,
                                Option.isNone_some,
                                Bool.or_self,
                                Bool.false_eq_true, if_false]
                          | none =>
                              simp only [Except.toOption,
                                Option.filter, hRefuses,
                                Option.isNone_none,
                                Bool.or_self,
                                Bool.false_eq_true,
                                if_false, if_true]

/- What is executed was built from the row's object. -/
theorem built_of_executed
    (hExecuted :
      executed p args columns table row = some statement) :
    ∃ data, row.data.asObject = some data ∧
      (data.lookup "id").isSome = true ∧
      columns.columns ≠ [] ∧
      statementOf p name columns.columns data args.overwrite =
        .ok statement := by
  unfold executed at hExecuted
  rcases Option.bind_eq_some_iff.mp hExecuted with
    ⟨data, hData, hRest⟩
  rcases Option.bind_eq_some_iff.mp hRest with
    ⟨id, hId, hOk⟩
  split at hOk
  · cases hOk
  · rename_i hNot
    rcases Option.filter_eq_some_iff.mp hOk with ⟨hBuilt, _⟩
    refine ⟨data, hData, ?_, ?_, ?_⟩
    · rw [(Option.filter_eq_some_iff.mp hId).1]
      rfl
    · intro hNil
      simp [hNil] at hNot
    · cases hStatement :
          statementOf p name columns.columns data
            args.overwrite with
      | error message =>
          rw [hStatement] at hBuilt
          cases hBuilt
      | ok built =>
          rw [hStatement] at hBuilt
          cases hBuilt
          rfl

end Restore

--------------------
-- What a Statement Sets
--------------------

namespace Restore

open Relational (Cell)

variable {p : Platform}
variable {name : String}
variable {columns : List (String × String)}
variable {data : Fields}
variable {statement : Statement}
variable {overwrite : Bool}

theorem mem_names_boundCells
    {column : String} :
    column ∈ (boundCells p columns data).map Prod.fst ↔
      column ∈ columns.map Prod.fst ∧
        (data.lookup column).isSome = true := by
  simp only [boundCells, List.mem_map, List.mem_filterMap]
  constructor
  · rintro ⟨cell, ⟨⟨other, castTo⟩, hIn, hCell⟩, rfl⟩
    rcases Option.map_eq_some_iff.mp hCell with
      ⟨value, hValue, rfl⟩
    exact
      ⟨⟨(other, castTo), hIn, rfl⟩,
        Option.isSome_iff_exists.mpr ⟨value, hValue⟩⟩
  · rintro ⟨⟨⟨other, castTo⟩, hIn, rfl⟩, hSome⟩
    rcases Option.isSome_iff_exists.mp hSome with
      ⟨value, hValue⟩
    exact
      ⟨(other, p.bind castTo value),
        ⟨(other, castTo), hIn, by rw [hValue]; rfl⟩, rfl⟩

/- The cells that `write_row` adds the credential to. -/
theorem statementOf_eq_ok
    (hBuilt :
      statementOf p name columns data overwrite =
        .ok statement) :
    statement.cells =
        withCredential name (boundCells p columns data) ∧
      statement.conflict =
        conflictOf overwrite
          (statement.cells.map Prod.fst) := by
  unfold statementOf at hBuilt
  dsimp only at hBuilt
  split at hBuilt
  · cases hBuilt
  · cases hBuilt
    exact ⟨rfl, rfl⟩

theorem columns_conflictOf
    {names : List String}
    {column : String} :
    column ∈ (conflictOf overwrite names).columns ↔
      overwrite = true ∧ column ∈ names ∧ column ≠ "id" := by
  unfold conflictOf
  split
  · rename_i hOverwrite
    dsimp only
    split
    · rename_i hEmpty
      rw [List.isEmpty_iff, List.filter_eq_nil_iff] at hEmpty
      simp only [Upsert.Conflict.columns, List.not_mem_nil,
        false_iff]
      rintro ⟨_, hIn, hNe⟩
      exact hEmpty column hIn (decide_eq_true hNe)
    · simp [Upsert.Conflict.columns, hOverwrite]
  · rename_i hNot
    simp [Upsert.Conflict.columns, hNot]

/- The credential goes after the cells that are bound. -/
theorem lookup_withCredential
    {cells : List (String × Cell)}
    {column : String}
    {cell : Cell}
    (hBound : cells.lookup column = some cell) :
    (withCredential name cells).lookup column = some cell := by
  unfold withCredential
  split
  · rw [List.lookup_append, hBound]
    rfl
  · exact hBound

theorem mem_names_withCredential
    {cells : List (String × Cell)}
    {column : String}
    (hIn : column ∈ (withCredential name cells).map Prod.fst) :
    column ∈ cells.map Prod.fst ∨
      (name = "camera_nodes" ∧ column = "api_key_hash") := by
  unfold withCredential at hIn
  split at hIn
  · rename_i hNode
    rw [List.map_append, List.mem_append] at hIn
    rcases hIn with hOld | hNew
    · exact Or.inl hOld
    · exact Or.inr ⟨hNode.1, List.mem_singleton.mp hNew⟩
  · exact Or.inl hIn

end Restore

--------------------
-- Executed Statements
--------------------

namespace Restore

open Relational (Cell)

variable {p : Platform}
variable {args : Args}
variable {name : String}
variable {columns : Columns}
variable {table : Table}
variable {row : Mirrored name}
variable {statement : Statement}

/- It proposes a row under the mirrored row's id. -/
theorem idCell_of_executed
    (hExecuted :
      executed p args columns table row = some statement) :
    row.idCell p columns =
      some (statement.row row.defaults "id") := by
  rcases built_of_executed hExecuted with
    ⟨data, hData, hId, hKnown, hBuilt⟩
  have hCells := (statementOf_eq_ok hBuilt).1
  have hIn :
      "id" ∈ (boundCells p columns.columns data).map
        Prod.fst :=
    mem_names_boundCells.mpr ⟨columns.id_known hKnown, hId⟩
  rcases List.mem_map.mp hIn with ⟨bound, hBound, hName⟩
  have hSome :
      ((boundCells p columns.columns data).lookup
        "id").isSome = true :=
    List.lookup_isSome_iff.mpr
      ⟨bound, hBound, beq_iff_eq.mpr hName.symm⟩
  rcases Option.isSome_iff_exists.mp hSome with ⟨cell, hCell⟩
  have hLookup :
      statement.cells.lookup "id" = some cell := by
    rw [hCells]
    exact lookup_withCredential hCell
  rw [Mirrored.idCell, hData, Option.bind_some, hCell,
    Statement.row, hLookup]
  rfl

/- It sets carried columns, and for a node the credential. -/
theorem carries_of_executed
    (hExecuted :
      executed p args columns table row = some statement)
    {column : String}
    (hSet : column ∈ statement.conflict.columns) :
    row.Carries column ∨
      (name = "camera_nodes" ∧ column = "api_key_hash") := by
  rcases built_of_executed hExecuted with
    ⟨data, hData, _, _, hBuilt⟩
  rcases statementOf_eq_ok hBuilt with ⟨hCells, hConflict⟩
  rw [hConflict] at hSet
  have hIn := (columns_conflictOf.mp hSet).2.1
  rw [hCells] at hIn
  rcases mem_names_withCredential hIn with hBound | hNode
  · exact
      Or.inl ⟨data, hData, (mem_names_boundCells.mp hBound).2⟩
  · exact Or.inr hNode

/- No mirrored node has a key, so it gets the credential. -/
theorem credential_of_executed
    (hExecuted :
      executed p args columns table row = some statement)
    (hNode : name = "camera_nodes") :
    statement.row row.defaults "api_key_hash" =
        .text unrestorableCredential ∧
      (args.overwrite = true →
        "api_key_hash" ∈ statement.conflict.columns) := by
  rcases built_of_executed hExecuted with
    ⟨data, hData, _, _, hBuilt⟩
  rcases statementOf_eq_ok hBuilt with ⟨hCells, hConflict⟩
  have hDenied :
      "api_key_hash" ∈ Sync.deniedColumns name := by
    rw [hNode]
    decide
  have hNone :=
    row.undenied data (Json.eq_object_of_asObject hData)
      "api_key_hash" hDenied
  have hOut :
      "api_key_hash" ∉
        (boundCells p columns.columns data).map Prod.fst := by
    intro hIn
    have hSome := (mem_names_boundCells.mp hIn).2
    rw [hNone] at hSome
    cases hSome
  have hAdded :
      statement.cells =
        boundCells p columns.columns data ++
          [("api_key_hash",
            .text unrestorableCredential)] := by
    rw [hCells, withCredential, if_pos ⟨hNode, hOut⟩]
  have hMissing :
      (boundCells p columns.columns data).lookup
          "api_key_hash" = none := by
    by_contra hSome
    rw [← ne_eq, ← Option.isSome_iff_ne_none,
      List.lookup_isSome_iff] at hSome
    rcases hSome with ⟨bound, hBound, hName⟩
    exact
      hOut (beq_iff_eq.mp hName ▸ List.mem_map_of_mem hBound)
  constructor
  · rw [Statement.row, hAdded, List.lookup_append, hMissing]
    rfl
  · intro hOverwrite
    rw [hConflict, columns_conflictOf, hAdded]
    exact ⟨hOverwrite, by simp, by decide⟩

theorem nothing_of_executed
    (hExecuted :
      executed p args columns table row = some statement)
    (hKeep : args.overwrite = false) :
    statement.conflict = .nothing := by
  rcases built_of_executed hExecuted with
    ⟨data, _, _, _, hBuilt⟩
  rw [(statementOf_eq_ok hBuilt).2, conflictOf, hKeep]
  rfl

end Restore

--------------------
-- Without Overwrite
--------------------

namespace Restore

open Relational (Cell)

variable {p : Platform}
variable {args : Args}
variable {name : String}
variable {columns : Columns}
variable {mirror : List (Mirrored name)}
variable {before : Table}

/- Every row that exists is left as it is. -/
def Untouched (before after : Table) : Prop :=
  ∀ row ∈ before.rows, row ∈ after.rows

/-
  Every other row has an id that was absent, and is built
  from a mirrored row.
-/
def InsertsMirrored
    (p : Platform)
    (columns : Columns)
    (mirror : List (Mirrored name))
    (before after : Table) : Prop :=
  ∀ row ∈ after.rows, row ∈ before.rows ∨
    ((∀ other ∈ before.rows, other "id" ≠ row "id") ∧
      ∃ mirrored ∈ mirror, ∃ data statement,
        mirrored.data.asObject = some data ∧
          statementOf p name columns.columns data false =
            .ok statement ∧
          row = statement.row mirrored.defaults)

theorem untouched_step
    (hKeep : args.overwrite = false)
    (progress : Progress)
    (row : Mirrored name)
    (hInv :
      Untouched before progress.table ∧
        InsertsMirrored p columns mirror before
          progress.table)
    (hRow : row ∈ mirror) :
    Untouched before
        (restoreRow p args columns progress row).table ∧
      InsertsMirrored p columns mirror before
        (restoreRow p args columns progress row).table := by
  rw [table_restoreRow]
  cases hExecuted :
      executed p args columns progress.table row with
  | none => exact hInv
  | some statement =>
      rcases hInv with ⟨hUntouched, hInserts⟩
      dsimp only
      rw [nothing_of_executed hExecuted hKeep]
      constructor
      · intro other hOther
        have hMem :
            Upsert.rewritten "id" .nothing
                (statement.row row.defaults) other ∈
              (progress.table.insert
                (statement.row row.defaults) .nothing).rows :=
          Upsert.mem_insert_of_mem (hUntouched other hOther)
        rwa [Upsert.rewritten_nothing] at hMem
      · intro next hNext
        rcases Upsert.cases_of_mem_insert hNext with
          ⟨other, hOther, rfl⟩ | ⟨rfl, hFree⟩
        · rw [Upsert.rewritten_nothing]
          exact hInserts other hOther
        · rcases built_of_executed hExecuted with
            ⟨data, hData, _, _, hBuilt⟩
          rw [hKeep] at hBuilt
          exact
            Or.inr
              ⟨fun other hOther =>
                hFree other (hUntouched other hOther),
                row, hRow, data, statement, hData, hBuilt,
                rfl⟩

end Restore

--------------------
-- With Overwrite
--------------------

namespace Restore

open Relational (Cell)

variable {p : Platform}
variable {args : Args}
variable {name : String}
variable {columns : Columns}
variable {mirror : List (Mirrored name)}
variable {before : Table}
variable {progress : Progress}

/-
  A column that never leaves the install, or that no
  mirrored row of this id carries.
-/
def Protected
    (p : Platform)
    (columns : Columns)
    (mirror : List (Mirrored name))
    (id : Cell)
    (column : String) : Prop :=
  column ∈ Sync.deniedColumns name ∨
    ∀ mirrored ∈ mirror,
      mirrored.idCell p columns = some id →
        ¬ mirrored.Carries column

/- The rows that exist keep these columns. -/
def KeepsProtected
    (p : Platform)
    (columns : Columns)
    (mirror : List (Mirrored name))
    (before after : Table) : Prop :=
  ∀ row ∈ before.rows, ∃ row' ∈ after.rows,
    row' "id" = row "id" ∧
      ∀ column,
        Protected p columns mirror (row "id") column →
          row' column = row column

theorem not_carries_of_protected
    {mirrored : Mirrored name}
    {id : Cell}
    {column : String}
    (hProtected : Protected p columns mirror id column)
    (hMem : mirrored ∈ mirror)
    (hId : mirrored.idCell p columns = some id) :
    ¬ mirrored.Carries column := by
  rcases hProtected with hDenied | hNone
  · rintro ⟨data, hData, hSome⟩
    have hObject := Json.eq_object_of_asObject hData
    rw [mirrored.undenied data hObject column hDenied] at hSome
    cases hSome
  · exact hNone mirrored hMem hId

/- The credential's column is protected in every node. -/
theorem protected_key
    (hNode : name = "camera_nodes")
    (id : Cell) :
    Protected p columns mirror id "api_key_hash" :=
  Or.inl (by rw [hNode]; decide)

/- The credential is all that a protected column can get. -/
structure Spared
    (p : Platform)
    (columns : Columns)
    (mirror : List (Mirrored name))
    (before after : Table) : Prop where
  kept :
    ∀ row ∈ before.rows, ∃ row' ∈ after.rows,
      row' "id" = row "id" ∧
        ∀ column,
          Protected p columns mirror (row "id") column →
            row' column = row column ∨
              (name = "camera_nodes" ∧
                column = "api_key_hash" ∧
                row' column = .text unrestorableCredential)
  fresh :
    name = "camera_nodes" →
      ∀ row ∈ after.rows,
        (∀ other ∈ before.rows, other "id" ≠ row "id") →
          row "api_key_hash" = .text unrestorableCredential

/-
  A node whose mirrored row is executed has no real key to
  lose.
-/
def SparesKey
    (p : Platform)
    (args : Args)
    (columns : Columns)
    (progress : Progress)
    (row : Mirrored name) : Prop :=
  name = "camera_nodes" → args.overwrite = true →
    (executed p args columns progress.table row).isSome =
        true →
      ∀ node ∈ progress.table.rows,
        row.idCell p columns = some (node "id") →
          node "api_key_hash" = .text unrestorableCredential

/- What a statement leaves in a protected column. -/
theorem rewritten_protected
    {row : Mirrored name}
    {statement : Statement}
    {table : Table}
    {existing : Row}
    {column : String}
    (hExecuted :
      executed p args columns table row = some statement)
    (hRow : row ∈ mirror)
    (hProtected :
      Protected p columns mirror (existing "id") column) :
    Upsert.rewritten "id" statement.conflict
          (statement.row row.defaults) existing column =
        existing column ∨
      (name = "camera_nodes" ∧ column = "api_key_hash" ∧
        existing "id" = statement.row row.defaults "id" ∧
        Upsert.rewritten "id" statement.conflict
            (statement.row row.defaults) existing column =
          .text unrestorableCredential) := by
  by_cases hSame :
      existing "id" = statement.row row.defaults "id"
  · by_cases hSet : column ∈ statement.conflict.columns
    · have hId := idCell_of_executed hExecuted
      rw [← hSame] at hId
      rcases carries_of_executed hExecuted hSet with
        hCarries | ⟨hNode, rfl⟩
      · exact
          absurd hCarries
            (not_carries_of_protected hProtected hRow hId)
      · refine Or.inr ⟨hNode, rfl, hSame, ?_⟩
        rw [Upsert.rewritten_of_mem hSame hSet]
        exact (credential_of_executed hExecuted hNode).1
    · exact Or.inl (Upsert.rewritten_of_not_mem _ _ hSet)
  · exact Or.inl (by rw [Upsert.rewritten_of_ne hSame])

theorem spared_start
    (before : Table) :
    Spared p columns mirror before before where
  kept := fun row hRow =>
    ⟨row, hRow, rfl, fun _ _ => Or.inl rfl⟩
  fresh := fun _ row hRow hNone =>
    absurd rfl (hNone row hRow)

theorem spared_step
    (progress : Progress)
    (row : Mirrored name)
    (hSpared : Spared p columns mirror before progress.table)
    (hRow : row ∈ mirror) :
    Spared p columns mirror before
      (restoreRow p args columns progress row).table := by
  rw [table_restoreRow]
  cases hExecuted :
      executed p args columns progress.table row with
  | none => exact hSpared
  | some statement =>
      constructor
      · intro old hOld
        rcases hSpared.kept old hOld with
          ⟨now, hNow, hId, hColumns⟩
        refine
          ⟨_, Upsert.mem_insert_of_mem hNow,
            (Upsert.rewritten_key _ _ _ _).trans hId, ?_⟩
        intro column hProtected
        have hStill :
            Protected p columns mirror (now "id") column :=
          hId.symm ▸ hProtected
        rcases rewritten_protected hExecuted hRow hStill with
          hSame | ⟨hNode, hKey, _, hSet⟩
        · rw [hSame]
          exact hColumns column hProtected
        · exact Or.inr ⟨hNode, hKey, hSet⟩
      · intro hNode next hNext hNone
        rcases Upsert.cases_of_mem_insert hNext with
          ⟨other, hOther, rfl⟩ | ⟨rfl, _⟩
        · rw [Upsert.rewritten_key] at hNone
          have hDenied :
              Protected p columns mirror (other "id")
                "api_key_hash" :=
            protected_key hNode (other "id")
          rcases rewritten_protected hExecuted hRow hDenied
            with hSame | ⟨_, _, _, hSet⟩
          · rw [hSame]
            exact hSpared.fresh hNode other hOther hNone
          · exact hSet
        · exact (credential_of_executed hExecuted hNode).1

/- Rows of a table are known by their ids. -/
theorem eq_of_same_id
    {table : Table}
    {first second : Row}
    (hFirst : first ∈ table.rows)
    (hSecond : second ∈ table.rows)
    (hId : first "id" = second "id") :
    first = second :=
  List.inj_on_of_nodup_map table.keys_nodup hFirst hSecond hId

/- After an insert, a row's id leads to what became of it. -/
theorem eq_rewritten_of_same_id
    {table : Table}
    {excluded now next : Row}
    {conflict : Upsert.Conflict String}
    (hNow : now ∈ table.rows)
    (hNext : next ∈ (table.insert excluded conflict).rows)
    (hId : next "id" = now "id") :
    next = Upsert.rewritten "id" conflict excluded now :=
  eq_of_same_id hNext (Upsert.mem_insert_of_mem hNow)
    (hId.trans (Upsert.rewritten_key _ _ _ _).symm)

/- A table that keeps them after a step kept them before. -/
theorem keepsProtected_of_step
    {row : Mirrored name}
    {statement : Statement}
    (hSpared : Spared p columns mirror before progress.table)
    (hRow : row ∈ mirror)
    (hExecuted :
      executed p args columns progress.table row =
        some statement)
    (hKept :
      KeepsProtected p columns mirror before
        (progress.table.insert (statement.row row.defaults)
          statement.conflict)) :
    KeepsProtected p columns mirror before progress.table := by
  intro old hOld
  rcases hSpared.kept old hOld with ⟨now, hNow, hId, hColumns⟩
  rcases hKept old hOld with ⟨next, hNext, hNextId, hSame⟩
  have hIs :=
    eq_rewritten_of_same_id hNow hNext
      (hNextId.trans hId.symm)
  refine ⟨now, hNow, hId, ?_⟩
  intro column hProtected
  rcases hColumns column hProtected with
    hStays | ⟨hNode, rfl, hCredential⟩
  · exact hStays
  · have hStill :
        Protected p columns mirror (now "id")
          "api_key_hash" :=
      hId.symm ▸ hProtected
    have hEnd := hSame "api_key_hash" hProtected
    rw [hIs] at hEnd
    rcases rewritten_protected hExecuted hRow hStill with
      hUnset | ⟨_, _, _, hSet⟩
    · rw [← hUnset, hEnd]
    · rw [hCredential, ← hSet, hEnd]

/- And the step had no real key to lose. -/
theorem sparesKey_of_step
    {row : Mirrored name}
    (hSpared : Spared p columns mirror before progress.table)
    (hKept :
      KeepsProtected p columns mirror before
        (restoreRow p args columns progress row).table) :
    SparesKey p args columns progress row := by
  intro hNode hOverwrite hSome node hMem hId
  rcases Option.isSome_iff_exists.mp hSome with
    ⟨statement, hExecuted⟩
  rw [table_restoreRow, hExecuted] at hKept
  rw [idCell_of_executed hExecuted] at hId
  have hSame := (Option.some.inj hId).symm
  by_cases hFresh :
      ∀ other ∈ before.rows, other "id" ≠ node "id"
  · exact hSpared.fresh hNode node hMem hFresh
  · simp only [not_forall, not_not] at hFresh
    rcases hFresh with ⟨old, hOld, hOldId⟩
    rcases hSpared.kept old hOld with
      ⟨now, hNow, hNowId, hColumns⟩
    have hIs : now = node :=
      eq_of_same_id hNow hMem (hNowId.trans hOldId)
    subst hIs
    rcases hKept old hOld with ⟨next, hNext, hNextId, hKeeps⟩
    have hNextIs :=
      eq_rewritten_of_same_id hNow hNext
        (hNextId.trans hOldId)
    have hDenied :
        Protected p columns mirror (old "id")
          "api_key_hash" :=
      protected_key hNode (old "id")
    rcases credential_of_executed hExecuted hNode with
      ⟨hCredential, hSets⟩
    have hOldKey := hKeeps "api_key_hash" hDenied
    rw [hNextIs,
      Upsert.rewritten_of_mem hSame (hSets hOverwrite),
      hCredential] at hOldKey
    rcases hColumns "api_key_hash" hDenied with
      hStays | ⟨_, _, hSet⟩
    · rw [hStays, ← hOldKey]
    · exact hSet

theorem keepsProtected_step_iff
    (hOverwrite : args.overwrite = true)
    (progress : Progress)
    (row : Mirrored name)
    (hSpared : Spared p columns mirror before progress.table)
    (hRow : row ∈ mirror) :
    KeepsProtected p columns mirror before
        (restoreRow p args columns progress row).table ↔
      KeepsProtected p columns mirror before progress.table ∧
        SparesKey p args columns progress row := by
  constructor
  · intro hKept
    refine ⟨?_, sparesKey_of_step hSpared hKept⟩
    rw [table_restoreRow] at hKept
    cases hExecuted :
        executed p args columns progress.table row with
    | none =>
        rw [hExecuted] at hKept
        exact hKept
    | some statement =>
        rw [hExecuted] at hKept
        exact
          keepsProtected_of_step hSpared hRow hExecuted hKept
  · rintro ⟨hKept, hSpares⟩
    rw [table_restoreRow]
    cases hExecuted :
        executed p args columns progress.table row with
    | none => exact hKept
    | some statement =>
        intro old hOld
        rcases hKept old hOld with ⟨now, hNow, hId, hSame⟩
        refine
          ⟨_, Upsert.mem_insert_of_mem hNow,
            (Upsert.rewritten_key _ _ _ _).trans hId, ?_⟩
        intro column hProtected
        rw [← hSame column hProtected]
        have hStill :
            Protected p columns mirror (now "id") column :=
          hId.symm ▸ hProtected
        rcases rewritten_protected hExecuted hRow hStill with
          hUnset | ⟨hNode, rfl, hTaken, hSet⟩
        · exact hUnset
        · have hSome :
              (executed p args columns progress.table
                row).isSome = true := by
            rw [hExecuted]
            rfl
          have hIdCell :
              row.idCell p columns = some (now "id") :=
            hTaken.symm ▸ idCell_of_executed hExecuted
          rw [hSet,
            hSpares hNode hOverwrite hSome now hNow hIdCell]

end Restore

--------------------
-- Restoring a Table
--------------------

namespace Restore

open Relational (Cell)

variable {name : String}

/-
  Without `--overwrite` what exists is untouched and what is
  inserted was absent; with it, protected columns are kept.
-/
def Harmless
    (p : Platform)
    (args : Args)
    (columns : Columns)
    (mirror : List (Mirrored name))
    (before after : Table) : Prop :=
  (args.overwrite = false →
    Untouched before after ∧
      InsertsMirrored p columns mirror before after) ∧
  (args.overwrite = true →
    KeepsProtected p columns mirror before after)

/-
  A restore of a table does no damage exactly when it
  overwrites no node that has a key of its own.
-/
theorem restore_harmless_iff
    (p : Platform)
    (args : Args)
    (columns : Columns)
    (before : Table)
    (pages : List (List (Mirrored name))) :
    Harmless p args columns pages.flatten before
        (restoreTable p args columns before pages).table ↔
      Run.Meets (restoreRow p args columns)
        (SparesKey p args columns) (Progress.start before)
        pages.flatten := by
  rw [restoreTable_eq_exec]
  have hMirrored :
      Run.Meets (restoreRow p args columns)
        (fun _ row => row ∈ pages.flatten)
        (Progress.start before) pages.flatten :=
    Run.meets_of_forall (fun row hRow _ => hRow) _
  cases hOverwrite : args.overwrite with
  | false =>
      have hKept :=
        Run.invariant_of_meets
          (untouched_step hOverwrite)
          (s := Progress.start before)
          ⟨fun row hRow => hRow, fun row hRow => Or.inl hRow⟩
          hMirrored
      constructor
      · intro _
        refine Run.meets_of_forall ?_ _
        intro row _ progress _ hYes
        rw [hOverwrite] at hYes
        cases hYes
      · intro _
        refine ⟨fun _ => hKept, fun hYes => ?_⟩
        rw [hOverwrite] at hYes
        cases hYes
  | true =>
      have hIff :=
        Run.good_exec_iff_meets
          (fun progress : Progress =>
            KeepsProtected p columns pages.flatten before
              progress.table)
          spared_step (keepsProtected_step_iff hOverwrite)
          (s := Progress.start before)
          (spared_start before) hMirrored
      have hStart :
          KeepsProtected p columns pages.flatten before
            (Progress.start before).table :=
        fun row hRow => ⟨row, hRow, rfl, fun _ _ => rfl⟩
      rw [← and_iff_right hStart
        (b := Run.Meets _ _ _ _), ← hIff]
      constructor
      · exact fun hHarmless => hHarmless.2 hOverwrite
      · intro hKept
        refine ⟨fun hNo => ?_, fun _ => hKept⟩
        rw [hOverwrite] at hNo
        cases hNo

/- A database that refuses nothing, with ids of digits. -/
def lenient : Platform where
  serialise := fun value =>
    match value with
    | .integer n =>
        String.ofList (Nat.toDigits 10 n.toNat)
    | _ => ""
  cast := fun castTo text =>
    if castTo = "integer" then
      .int
        (text.toList.foldl
          (fun n digit => 10 * n + (digit.toNat - 48)) 0)
    else
      .text text
  refuses := fun _ _ => none

def nodeColumns : Columns where
  columns :=
    [("id", "integer"),
      ("api_key_hash", "character varying(128)"),
      ("name", "character varying(100)")]
  id_known := fun _ => List.mem_cons_self

/- The node that is there, with its own key. -/
def nodes : Table where
  rows :=
    [fun column =>
      if column = "id" then
        .int 1
      else if column = "api_key_hash" then
        .text "9f86d081"
      else
        .text "Porch"]
  keys_nodup := List.nodup_singleton _

/- The same node, as this install pushed it. -/
def mirroredNode : Mirrored "camera_nodes" :=
  Mirrored.pushed "camera_nodes" nodeColumns.columns
    (fun column =>
      if column = "id" then .integer 1 else .string "Porch")
    (fun _ => .null)

def overwriting : Args where
  dryRun := false
  overwrite := true

theorem overwrite_replaces_key :
    ¬ Harmless lenient overwriting nodeColumns
        [[mirroredNode]].flatten nodes
        (restoreTable lenient overwriting nodeColumns nodes
          [[mirroredNode]]).table := by
  intro hHarmless
  rcases hHarmless.2 rfl _ List.mem_cons_self with
    ⟨row, hRow, _, hKeeps⟩
  have hKey := hKeeps "api_key_hash" (Or.inl (by decide))
  have hKeys :
      (restoreTable lenient overwriting nodeColumns nodes
          [[mirroredNode]]).table.rows.map
            (fun row => row "api_key_hash") =
        [.text unrestorableCredential] := by
    decide +kernel
  have hIn :=
    List.mem_map_of_mem (f := fun row => row "api_key_hash")
      hRow
  rw [hKeys, List.mem_singleton] at hIn
  rw [hIn] at hKey
  exact absurd hKey (by decide)

end Restore

end SentinelCommand
