import Mathlib.Data.List.Sort

/-
  The place of an element in a list that is strictly sorted:
  whether it is among the last ones, and what comes from it
  on, told by comparing it with the others.

  Key theorems include:
    * `Rank.mem_drop_iff`
    * `Rank.filter_from`
-/

--------------------
-- Strictly Sorted Lists
--------------------

namespace Rank

variable {α : Type}
variable {before : α → α → Bool}

/- The comparison is that of a strict order. -/
structure Strict (before : α → α → Bool) : Prop where
  irrefl : ∀ x, before x x = false
  asymm : ∀ x y, before x y = true → before y x = false

/- The last `count` elements are those with fewer after. -/
theorem mem_drop_iff
    (hStrict : Strict before)
    {sorted : List α}
    (hSorted :
      sorted.Pairwise (fun x y => before x y = true))
    {x : α}
    (hMem : x ∈ sorted)
    (count : Nat) :
    x ∈ sorted.drop (sorted.length - count) ↔
      sorted.countP (before x) < count := by
  induction sorted with
  | nil => exact absurd hMem List.not_mem_nil
  | cons first rest ih =>
      rcases List.pairwise_cons.mp hSorted with ⟨hFirst, hRest⟩
      by_cases hIn : x ∈ rest
      · have hNot : before x first = false :=
          hStrict.asymm first x (hFirst x hIn)
        rw [List.countP_cons_of_neg (by simp [hNot]),
          ← ih hRest hIn]
        by_cases hShort : rest.length < count
        · have hAll : rest.length - count = 0 := by omega
          have hAll' : (first :: rest).length - count = 0 := by
            simp only [List.length_cons]
            omega
          rw [hAll, hAll', List.drop_zero, List.drop_zero]
          exact iff_of_true hMem hIn
        · have hOne :
              (first :: rest).length - count =
                (rest.length - count) + 1 := by
            simp only [List.length_cons]
            omega
          rw [hOne, List.drop_succ_cons]
      · have hSame : x = first :=
          (List.mem_cons.mp hMem).resolve_right hIn
        subst hSame
        have hCount : rest.countP (before x) = rest.length :=
          List.countP_eq_length.mpr hFirst
        rw [List.countP_cons_of_neg
          (by simp [hStrict.irrefl]), hCount]
        by_cases hShort : rest.length < count
        · have hAll : (x :: rest).length - count = 0 := by
            simp only [List.length_cons]
            omega
          rw [hAll, List.drop_zero]
          exact iff_of_true hMem hShort
        · have hOne :
              (x :: rest).length - count =
                (rest.length - count) + 1 := by
            simp only [List.length_cons]
            omega
          rw [hOne, List.drop_succ_cons]
          refine iff_of_false ?_ hShort
          intro hDropped
          exact hIn (List.mem_of_mem_drop hDropped)

/- From an element on there is what does not come before. -/
theorem filter_from
    (hStrict : Strict before)
    {front back : List α}
    {x : α}
    (hSorted :
      (front ++ x :: back).Pairwise
        (fun x y => before x y = true)) :
    (front ++ x :: back).filter (fun y => !before y x) =
      x :: back := by
  rcases List.pairwise_append.mp hSorted with
    ⟨-, hBack, hAcross⟩
  have hFront :
      front.filter (fun y => !before y x) = [] := by
    rw [List.filter_eq_nil_iff]
    intro y hY
    simp [hAcross y hY x List.mem_cons_self]
  have hAfter :
      (x :: back).filter (fun y => !before y x) =
        x :: back := by
    rw [List.filter_eq_self]
    intro y hY
    rcases List.mem_cons.mp hY with rfl | hY
    · simp [hStrict.irrefl]
    · have hNot :=
        hStrict.asymm x y
          ((List.pairwise_cons.mp hBack).1 y hY)
      simp [hNot]
  rw [List.filter_append, hFront, hAfter, List.nil_append]

end Rank
