import SentinelCommand.Restore.Frame

/-
  Ordinary inserts after a restore.

  An integer id defaults to the next value of the table's
  sequence. A restore names the id of every row it inserts,
  so it takes no value, and nothing sets the sequence
  afterwards: it hands out the restored ids one by one.

  Key definitions include:
    * `Restore.Serial`, `Restore.Serial.step`
    * `Restore.Collides`

  Main declarations:
    * `Restore.later_inserts_succeed_iff`
    * `Restore.first_insert_collides`
-/

--------------------
-- Sequences
--------------------

namespace SentinelCommand

namespace Restore

open Relational (Cell)

/- The last value of a sequence `AS integer`. -/
def sequenceMax : Int :=
  2147483647

/- A table and the value its sequence hands out next. -/
structure Serial where
  table : Table
  next : Int

/-
  What happens to the table later on. An insert takes its id
  from the default, and may be refused for other reasons.
-/
inductive Later where
  | insert (row : Row) (refused : Bool)
  | delete (id : Cell)

namespace Serial

/- The row with the id that `nextval` gave it. -/
def proposed (s : Serial) (row : Row) : Row :=
  Function.update row "id" (.int s.next)

/-
  An insert that fails leaves the table, but the sequence
  has moved on. A sequence at its end hands out nothing.
-/
def step (s : Serial) : Later → Serial
| .insert row refused =>
    if s.next ≤ sequenceMax then
      { table :=
          if refused then
            s.table
          else
            s.table.insert (s.proposed row) .nothing
        next := s.next + 1 }
    else
      s
| .delete id => { s with table := s.table.delete id }

end Serial

def ids (table : Table) : List Cell :=
  table.rows.map (fun row => row "id")

/- The next id that is handed out is taken. -/
def Collides (s : Serial) : Prop :=
  s.next ≤ sequenceMax ∧ .int s.next ∈ ids s.table

instance (s : Serial) : Decidable (Collides s) :=
  inferInstanceAs (Decidable (_ ∧ _))

/- An insert gets an id that no row has. -/
def GetsFreeId (s : Serial) : Later → Prop
| .insert _ _ => ¬ Collides s
| .delete _ => True

/- No id that the sequence still hands out is taken. -/
def IdsAhead (next : Int) (table : Table) : Prop :=
  ∀ n, next ≤ n → n ≤ sequenceMax → .int n ∉ ids table

end Restore

--------------------
-- Later Inserts
--------------------

namespace Restore

open Relational (Cell)

variable {s : Serial}

theorem mem_ids_insert
    {table : Table}
    {row : Row}
    {conflict : Upsert.Conflict String}
    {id : Cell} :
    id ∈ ids (table.insert row conflict) ↔
      id = row "id" ∨ id ∈ ids table :=
  Upsert.key_mem_insert

theorem mem_ids_delete
    {table : Table}
    {id gone : Cell}
    (hMem : id ∈ ids (table.delete gone)) :
    id ∈ ids table := by
  rcases List.mem_map.mp hMem with ⟨row, hRow, hId⟩
  exact
    List.mem_map.mpr ⟨row, (List.mem_filter.mp hRow).1, hId⟩

theorem not_collides_of_idsAhead
    (hAhead : IdsAhead s.next s.table) :
    ¬ Collides s :=
  fun hCollides =>
    hAhead s.next (Int.le_refl _) hCollides.1 hCollides.2

theorem idsAhead_serial_step
    (s : Serial)
    (later : Later)
    (hAhead : IdsAhead s.next s.table) :
    IdsAhead (s.step later).next (s.step later).table := by
  cases later with
  | insert row refused =>
      rw [Serial.step]
      split
      · intro n hFrom hMax hMem
        dsimp only at hFrom hMem
        split at hMem
        · exact hAhead n (by omega) hMax hMem
        · rcases mem_ids_insert.mp hMem with hNew | hOld
          · rw [Serial.proposed, Function.update_self] at hNew
            cases hNew
            omega
          · exact hAhead n (by omega) hMax hOld
      · exact hAhead
  | delete id =>
      intro n hFrom hMax hMem
      exact hAhead n hFrom hMax (mem_ids_delete hMem)

theorem getsFreeId_of_idsAhead
    (s : Serial)
    (later : Later)
    (hAhead : IdsAhead s.next s.table) :
    GetsFreeId s later := by
  cases later with
  | insert row refused => exact not_collides_of_idsAhead hAhead
  | delete id => trivial

/- So many inserts of an empty row. -/
def inserts (count : Nat) : List Later :=
  List.replicate count (.insert (fun _ => .null) false)

/- They move the sequence on, and no row goes. -/
theorem exec_inserts
    (count : Nat)
    (s : Serial)
    (hMax : s.next + count ≤ sequenceMax + 1) :
    (Run.exec Serial.step s (inserts count)).next =
        s.next + count ∧
      ∀ id ∈ ids s.table,
        id ∈
          ids (Run.exec Serial.step s
            (inserts count)).table := by
  induction count generalizing s with
  | zero => exact ⟨(Int.add_zero _).symm, fun _ hId => hId⟩
  | succ count ih =>
      rw [inserts, List.replicate_succ, Run.exec_cons]
      have hStep :
          s.step (.insert (fun _ => .null) false) =
            { table :=
                s.table.insert
                  (s.proposed (fun _ => .null)) .nothing
              next := s.next + 1 } := by
        rw [Serial.step, if_pos (by omega)]
        rfl
      rw [hStep]
      rcases ih
          { table :=
              s.table.insert
                (s.proposed (fun _ => .null)) .nothing
            next := s.next + 1 }
          (by push_cast at hMax ⊢; omega) with
        ⟨hNext, hIds⟩
      refine ⟨?_, ?_⟩
      · rw [inserts] at hNext
        rw [hNext]
        push_cast
        omega
      · intro id hId
        exact hIds id (mem_ids_insert.mpr (Or.inr hId))

/-
  Every insert of every later run gets a free id exactly
  when no id ahead of the sequence is taken now.
-/
theorem always_free_iff
    (s : Serial) :
    (∀ later, Run.Meets Serial.step GetsFreeId s later) ↔
      IdsAhead s.next s.table := by
  constructor
  · intro hAlways n hFrom hMax hMem
    have hCount : ((n - s.next).toNat : Int) = n - s.next := by
      omega
    rcases exec_inserts (n - s.next).toNat s (by omega) with
      ⟨hNext, hIds⟩
    have hMeets :=
      hAlways (inserts (n - s.next).toNat ++ inserts 1)
    rw [Run.meets_append] at hMeets
    have hLast := hMeets.2.1
    have hIs :
        (Run.exec Serial.step s
          (inserts (n - s.next).toNat)).next = n := by
      omega
    apply hLast
    rw [Collides, hIs]
    exact ⟨hMax, hIds _ hMem⟩
  · intro hAhead later
    exact
      Run.meets_of_invariant idsAhead_serial_step
        getsFreeId_of_idsAhead later hAhead

--------------------
-- After a Restore
--------------------

variable {p : Platform}
variable {args : Args}
variable {name : String}
variable {columns : Columns}

/-
  The row is not inserted under an id that the sequence
  still hands out.
-/
def SparesSequence
    (p : Platform)
    (args : Args)
    (columns : Columns)
    (next : Int)
    (progress : Progress)
    (row : Mirrored name) : Prop :=
  (executed p args columns progress.table row).isSome = true →
    ∀ n, next ≤ n → n ≤ sequenceMax →
      row.idCell p columns ≠ some (.int n)

theorem idsAhead_step_iff
    (next : Int)
    (progress : Progress)
    (row : Mirrored name) :
    IdsAhead next
        (restoreRow p args columns progress row).table ↔
      IdsAhead next progress.table ∧
        SparesSequence p args columns next progress row := by
  rw [table_restoreRow]
  unfold SparesSequence
  cases hExecuted :
      executed p args columns progress.table row with
  | none => simp
  | some statement =>
      rw [idCell_of_executed hExecuted]
      dsimp only
      constructor
      · intro hAhead
        constructor
        · intro n hFrom hMax hMem
          exact
            hAhead n hFrom hMax
              (mem_ids_insert.mpr (Or.inr hMem))
        · intro _ n hFrom hMax hId
          exact
            hAhead n hFrom hMax
              (mem_ids_insert.mpr
                (Or.inl (Option.some.inj hId).symm))
      · rintro ⟨hAhead, hSpares⟩ n hFrom hMax hMem
        rcases mem_ids_insert.mp hMem with hNew | hOld
        · exact hSpares rfl n hFrom hMax (hNew ▸ rfl)
        · exact hAhead n hFrom hMax hOld

/-
  After a restore into an empty table every later insert
  gets a free id exactly when no row was restored under an
  id that the sequence still hands out.
-/
theorem later_inserts_succeed_iff
    (p : Platform)
    (args : Args)
    (columns : Columns)
    (next : Int)
    (pages : List (List (Mirrored name))) :
    (∀ later,
      Run.Meets Serial.step GetsFreeId
        { table :=
            (restoreTable p args columns
              (Upsert.Table.empty "id") pages).table
          next := next }
        later) ↔
      Run.Meets (restoreRow p args columns)
        (SparesSequence p args columns next)
        (Progress.start (Upsert.Table.empty "id"))
        pages.flatten := by
  rw [always_free_iff, restoreTable_eq_exec]
  have hAlways
      (progress : Progress)
      (row : Mirrored name)
      (_ : True)
      (_ : True) : True :=
    trivial
  have hStep
      (progress : Progress)
      (row : Mirrored name)
      (_ : True)
      (_ : True) :
      IdsAhead next
          (restoreRow p args columns progress row).table ↔
        IdsAhead next progress.table ∧
          SparesSequence p args columns next progress row :=
    idsAhead_step_iff next progress row
  have hAny :
      Run.Meets (restoreRow p args columns) (fun _ _ => True)
        (Progress.start (Upsert.Table.empty "id"))
        pages.flatten :=
    Run.meets_of_forall (fun _ _ _ => trivial) _
  have hIff :=
    Run.good_exec_iff_meets
      (fun progress : Progress =>
        IdsAhead next progress.table)
      hAlways hStep trivial hAny
  have hEmpty :
      IdsAhead next
        (Progress.start (Upsert.Table.empty "id")).table :=
    fun _ _ _ hMem => absurd hMem List.not_mem_nil
  rw [hIff]
  exact and_iff_right hEmpty

/- One node is restored; the sequence has handed out none. -/
theorem first_insert_collides :
    ¬ Run.Meets Serial.step GetsFreeId
        { table :=
            (restoreTable lenient
              { dryRun := false, overwrite := false }
              nodeColumns (Upsert.Table.empty "id")
              [[mirroredNode]]).table
          next := 1 }
        [.insert (fun _ => .null) false] := by
  intro hMeets
  apply hMeets.1
  decide +kernel

end Restore

end SentinelCommand
