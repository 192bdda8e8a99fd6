import Mathlib.Data.List.Forall2

/-
  Redaction of a table: a statement that removes, or
  rewrites in place, the rows a filter hits.

  A redaction is complete when the table it leaves bears no
  trace of its subject and what it was to spare is as
  before. Both forms are complete exactly when the filter
  fits every row of the table.

  Key definitions include:
    * `Redaction.Clean`
    * `Redaction.remove`
    * `Redaction.rewrite`

  Key theorems include:
    * `Redaction.remove_complete_iff`
    * `Redaction.map_complete_iff`
    * `Redaction.remove_eq_iff`, `Redaction.rewrite_eq_iff`
-/

--------------------
-- Statements
--------------------

namespace Redaction

variable {α : Type}

/- No row of the table bears a trace. -/
def Clean
    (trace : α → Bool)
    (rows : List α) : Prop :=
  ∀ row ∈ rows, trace row = false

/- `DELETE … WHERE hit`. -/
def remove
    (hit : α → Bool)
    (rows : List α) : List α :=
  rows.filter (fun row => !hit row)

/- `UPDATE … SET put WHERE hit`. -/
def rewrite
    (hit : α → Bool)
    (put : α → α)
    (rows : List α) : List α :=
  rows.map (fun row => if hit row then put row else row)

--------------------
-- Completeness
--------------------

variable (trace spared hit : α → Bool) (rows : List α)

/- Removing rows spares a kind when it hits none of it. -/
theorem filter_remove_iff :
    (remove hit rows).filter spared = rows.filter spared ↔
      ∀ row ∈ rows, spared row = true → hit row = false := by
  induction rows with
  | nil => simp [remove]
  | cons row rows ih =>
      have hShorter :
          ((remove hit rows).filter spared).length ≤
            (rows.filter spared).length := by
        refine List.Sublist.length_le ?_
        exact List.Sublist.filter spared List.filter_sublist
      rw [List.forall_mem_cons, ← ih]
      cases hSpared : spared row <;> cases hHit : hit row
      · simp [remove, hSpared, hHit]
      · simp [remove, hSpared, hHit]
      · simp [remove, hSpared, hHit]
      · have hDropped :
            remove hit (row :: rows) = remove hit rows := by
          simp [remove, hHit]
        rw [hDropped]
        simp only [List.filter_cons_of_pos hSpared]
        constructor
        · intro hEq
          rw [hEq, List.length_cons] at hShorter
          omega
        · rintro ⟨hFalse, -⟩
          simp at hFalse

theorem clean_remove_iff :
    Clean trace (remove hit rows) ↔
      ∀ row ∈ rows, trace row = true → hit row = true := by
  simp only [Clean, remove, List.mem_filter,
    Bool.not_eq_true']
  constructor
  · intro hClean row hRow hTrace
    by_contra hHit
    have hNone := hClean row ⟨hRow, by simpa using hHit⟩
    simp [hTrace] at hNone
  · rintro hHits row ⟨hRow, hHit⟩
    by_contra hTrace
    have hSome := hHits row hRow (by simpa using hTrace)
    simp [hHit] at hSome

/-
  A removal that is to spare the rows without a trace is
  complete when it hits just the rows with one.
-/
theorem remove_complete_iff :
    (Clean trace (remove hit rows) ∧
        (remove hit rows).filter (fun row => !trace row) =
          rows.filter (fun row => !trace row)) ↔
      ∀ row ∈ rows, hit row = trace row := by
  rw [clean_remove_iff, filter_remove_iff]
  constructor
  · rintro ⟨hFinds, hSpares⟩ row hRow
    cases hTrace : trace row with
    | true => exact hFinds row hRow hTrace
    | false => exact hSpares row hRow (by simp [hTrace])
  · intro hFits
    refine ⟨?_, ?_⟩
    · intro row hRow hTrace
      rw [hFits row hRow, hTrace]
    · intro row hRow hSpared
      rw [hFits row hRow]
      simpa using hSpared

/- A rewriting of rows is complete row by row. -/
theorem map_complete_iff
    (f : α → α)
    (kept : α → α → Prop) :
    (Clean trace (rows.map f) ∧
        List.Forall₂ kept rows (rows.map f)) ↔
      ∀ row ∈ rows,
        trace (f row) = false ∧ kept row (f row) := by
  rw [List.forall₂_map_right_iff, List.forall₂_same]
  simp only [Clean, List.forall_mem_map]
  constructor
  · rintro ⟨hClean, hKept⟩ row hRow
    exact ⟨hClean row hRow, hKept row hRow⟩
  · intro hRows
    exact
      ⟨fun row hRow => (hRows row hRow).1,
        fun row hRow => (hRows row hRow).2⟩

variable (hit hit' : α → Bool) (rows : List α)

/- Two removals leave the same rows when they hit the same. -/
theorem remove_eq_iff :
    remove hit rows = remove hit' rows ↔
      ∀ row ∈ rows, hit row = hit' row := by
  constructor
  · intro hEq row hRow
    have hLeft :
        row ∈ remove hit rows ↔ hit row = false := by
      simp [remove, hRow]
    have hRight :
        row ∈ remove hit' rows ↔ hit' row = false := by
      simp [remove, hRow]
    rw [hEq, hRight] at hLeft
    cases hHit : hit row with
    | true => simpa [hHit] using hLeft
    | false => exact (hLeft.mpr hHit).symm
  · intro hSame
    apply List.filter_congr
    intro row hRow
    rw [hSame row hRow]

/-
  Two rewritings agree when they hit the same rows, apart
  from rows that rewriting does not change.
-/
theorem rewrite_eq_iff
    (put : α → α) :
    rewrite hit put rows = rewrite hit' put rows ↔
      ∀ row ∈ rows, put row = row ∨ hit row = hit' row := by
  rw [rewrite, rewrite, List.map_inj_left]
  apply forall₂_congr
  intro row _
  cases hit row with
  | true =>
      cases hit' row with
      | true => simp
      | false => simp
  | false =>
      cases hit' row with
      | true =>
          simp only [Bool.false_eq_true, if_false, if_true,
            or_false]
          exact eq_comm
      | false => simp

end Redaction
