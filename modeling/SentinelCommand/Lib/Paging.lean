import Mathlib.Data.List.Sort

/-
  Pages of a keyset query: the rows a filter keeps, in
  order, cut to a limit.

  Key definitions include:
    * `Paging.page`

  Key theorems include:
    * `Paging.page_eq_nil_iff`
    * `Paging.mem_page_of_short`
    * `Paging.mem_page_of_rel_last`
    * `Paging.length_filter_lt`
-/

--------------------
-- Pages
--------------------

namespace Paging

variable {α : Type}
variable (r : α → α → Prop) [DecidableRel r]

/- `WHERE keep ORDER BY r LIMIT limit`. -/
def page
    (limit : Nat)
    (keep : α → Bool)
    (rows : List α) : List α :=
  ((rows.filter keep).insertionSort r).take limit

variable {r}
variable {limit : Nat} {keep : α → Bool} {rows : List α}

theorem mem_of_mem_page
    {a : α}
    (hPage : a ∈ page r limit keep rows) :
    a ∈ rows ∧ keep a = true := by
  have hSorted := List.mem_of_mem_take hPage
  rw [List.mem_insertionSort] at hSorted
  exact List.mem_filter.mp hSorted

/- A page is empty only when the filter keeps nothing. -/
theorem page_eq_nil_iff
    (hLimit : 0 < limit) :
    page r limit keep rows = [] ↔
      ∀ a ∈ rows, keep a = false := by
  have hLength :
      (page r limit keep rows).length =
        min limit (rows.filter keep).length := by
    simp [page, List.length_insertionSort]
  constructor
  · intro hNil a hMem
    have hEmpty : (rows.filter keep).length = 0 := by
      rw [hNil, List.length_nil] at hLength
      omega
    have hNone :=
      List.filter_eq_nil_iff.mp
        (List.length_eq_zero_iff.mp hEmpty) a hMem
    simpa using hNone
  · intro hNone
    have hEmpty : rows.filter keep = [] := by
      apply List.filter_eq_nil_iff.mpr
      intro a hMem
      simp [hNone a hMem]
    simp [page, hEmpty]

/- A short page holds everything the filter keeps. -/
theorem mem_page_of_short
    (hShort : (page r limit keep rows).length < limit)
    {a : α}
    (hMem : a ∈ rows)
    (hKeep : keep a = true) :
    a ∈ page r limit keep rows := by
  have hLength :
      ((rows.filter keep).insertionSort r).length ≤
        limit := by
    rw [page, List.length_take] at hShort
    omega
  rw [page, List.take_of_length_le hLength,
    List.mem_insertionSort]
  exact List.mem_filter.mpr ⟨hMem, hKeep⟩

/- A page holds every kept row up to its last one. -/
theorem mem_page_of_rel_last
    [Std.Total r]
    [IsTrans α r]
    (hAntisymm :
      ∀ a ∈ rows, ∀ b ∈ rows, r a b → r b a → a = b)
    {a last : α}
    (hLast : last ∈ page r limit keep rows)
    (hMem : a ∈ rows)
    (hKeep : keep a = true)
    (hRel : r a last) :
    a ∈ page r limit keep rows := by
  have hSorted :=
    List.pairwise_insertionSort r (rows.filter keep)
  have hSplit :
      a ∈ page r limit keep rows ++
        ((rows.filter keep).insertionSort r).drop limit := by
    rw [page, List.take_append_drop, List.mem_insertionSort]
    exact List.mem_filter.mpr ⟨hMem, hKeep⟩
  rcases List.mem_append.mp hSplit with hPage | hRest
  · exact hPage
  · rw [← List.take_append_drop limit
      ((rows.filter keep).insertionSort r)] at hSorted
    have hBack : r last a :=
      (List.pairwise_append.mp hSorted).2.2 last hLast a
        hRest
    have hSame : a = last :=
      hAntisymm a hMem last (mem_of_mem_page hLast).1 hRel
        hBack
    rw [hSame]
    exact hLast

/- A filter that drops a row of another one is shorter. -/
theorem length_filter_lt
    {later : α → Bool}
    (hSub : ∀ a, later a = true → keep a = true)
    {dropped : α}
    (hMem : dropped ∈ rows)
    (hKeep : keep dropped = true)
    (hDrop : later dropped = false) :
    (rows.filter later).length < (rows.filter keep).length := by
  have hNested :
      (rows.filter keep).filter later = rows.filter later := by
    rw [List.filter_filter]
    apply List.filter_congr
    intro a _
    cases hLater : later a with
    | true => simp [hSub a hLater]
    | false => rfl
  rw [← hNested]
  apply List.length_filter_lt_length_iff_exists.mpr
  exact
    ⟨dropped, List.mem_filter.mpr ⟨hMem, hKeep⟩,
      by simp [hDrop]⟩

end Paging
