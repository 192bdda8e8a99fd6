import Mathlib.Algebra.Ring.Int.Defs
import Mathlib.Data.List.AList

/-
  The total weight of a table's values, and what an insertion
  and a removal do to it.

  Key definitions include:
    * `Tally.total`
    * `Tally.held`

  Key theorems include:
    * `Tally.total_erase`
    * `Tally.total_insert`
-/

--------------------
-- Totals
--------------------

namespace Tally

variable {K V : Type} [DecidableEq K]

/- The sum of the weights of all values. -/
def total
    (weight : V → Int)
    (table : AList (fun _ : K => V)) : Int :=
  (table.entries.map (fun entry => weight entry.2)).sum

/- The weight under one key, zero where there is none. -/
def held
    (weight : V → Int)
    (table : AList (fun _ : K => V))
    (key : K) : Int :=
  ((table.lookup key).map weight).getD 0

/- Removing a key takes its first value off the sum. -/
theorem sum_kerase
    (weight : V → Int)
    (key : K)
    (entries : List (Sigma (fun _ : K => V))) :
    (entries.map (fun entry => weight entry.2)).sum =
      (((entries.dlookup key).map weight).getD 0 +
        ((entries.kerase key).map
          (fun entry => weight entry.2)).sum) := by
  induction entries with
  | nil => simp
  | cons entry rest ih =>
      rcases entry with ⟨k, v⟩
      by_cases hKey : k = key
      · subst hKey
        have hErased :
            List.kerase k (⟨k, v⟩ :: rest) = rest :=
          List.kerase_cons_eq rfl
        rw [List.dlookup_cons_eq, hErased]
        simp
      · have hOther : key ≠ k := fun h => hKey h.symm
        rw [List.dlookup_cons_ne _ _ hOther,
          List.kerase_cons_ne hOther]
        simp only [List.map_cons, List.sum_cons]
        rw [ih]
        omega

theorem total_erase
    (weight : V → Int)
    (table : AList (fun _ : K => V))
    (key : K) :
    total weight (table.erase key) =
      total weight table - held weight table key := by
  have hSum := sum_kerase weight key table.entries
  have hErased :
      (table.erase key).entries =
        List.kerase key table.entries := rfl
  have hLookup :
      table.lookup key = table.entries.dlookup key := rfl
  unfold total held
  rw [hErased, hLookup]
  omega

theorem total_insert
    (weight : V → Int)
    (table : AList (fun _ : K => V))
    (key : K)
    (value : V) :
    total weight (table.insert key value) =
      total weight table - held weight table key +
        weight value := by
  have hErase := total_erase weight table key
  have hCons :
      total weight (table.insert key value) =
        weight value + total weight (table.erase key) := by
    unfold total
    rw [AList.entries_insert, List.map_cons, List.sum_cons]
    rfl
  omega

end Tally
