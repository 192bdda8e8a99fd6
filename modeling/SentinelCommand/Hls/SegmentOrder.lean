import SentinelCommand.Hls.LiveCache
import SentinelCommand.Lib.Numeral

/-
  The order of segment names: `SegmentName::cmp`, that it is
  a total order whose ties are equal names, and that it is
  the numeric order of the numbers in the names.

  Main declarations:
    * `Hls.segmentCmp`
    * `Hls.segmentBefore_iff`
    * `Hls.segmentCmp_eq_iff`, `Hls.segmentCmp_swap`
-/

--------------------
-- The Comparison
--------------------

namespace SentinelCommand

namespace Hls

/- `SegmentName::cmp`. -/
def segmentCmp : String → String → Ordering :=
  compareLex
    (compareOn (fun name : String => (sequence name).length))
    (compareLex
      (compareOn
        (fun name : String => String.ofList (sequence name)))
      compare)

/- Length of the sequence, then its digits, then the name. -/
theorem segmentCmp_def (a b : String) :
    segmentCmp a b =
      (compare (sequence a).length (sequence b).length).then
        ((compare (String.ofList (sequence a))
            (String.ofList (sequence b))).then
          (compare a b)) := by
  rfl

theorem segmentCmp_swap (a b : String) :
    (segmentCmp a b).swap = segmentCmp b a := by
  unfold segmentCmp
  exact Std.OrientedCmp.eq_swap.symm

/- Names that compare as equal are equal. -/
theorem segmentCmp_eq_iff (a b : String) :
    segmentCmp a b = .eq ↔ a = b := by
  unfold segmentCmp
  constructor
  · intro hEq
    simp only [compareLex_eq_eq] at hEq
    exact Std.LawfulEqCmp.eq_of_compare hEq.2.2
  · rintro rfl
    exact Std.ReflCmp.compare_self

theorem segmentCmp_trans
    {a b c : String}
    (hFirst : segmentCmp a b = .lt)
    (hSecond : segmentCmp b c = .lt) :
    segmentCmp a c = .lt := by
  unfold segmentCmp at hFirst hSecond ⊢
  exact Std.TransCmp.lt_trans hFirst hSecond

theorem compare_text_eq_lt (a b : String) :
    compare a b = .lt ↔ a < b :=
  compareOfLessAndEq_eq_lt

theorem compare_text_eq_eq (a b : String) :
    compare a b = .eq ↔ a = b :=
  Std.LawfulEqCmp.compare_eq_iff_eq

/- The order the store's buckets are kept in. -/
theorem segmentBefore_iff (a b : String) :
    segmentBefore a b = true ↔ segmentCmp a b = .lt := by
  rw [segmentCmp_def, Ordering.then_eq_lt, Ordering.then_eq_lt,
    Nat.compare_eq_lt, Nat.compare_eq_eq, compare_text_eq_lt,
    compare_text_eq_lt, compare_text_eq_eq, String.ofList_inj]
  unfold segmentBefore
  simp only [Bool.or_eq_true, Bool.and_eq_true,
    decide_eq_true_eq, beq_iff_eq]

theorem segmentBefore_trans
    {a b c : String}
    (hFirst : segmentBefore a b = true)
    (hSecond : segmentBefore b c = true) :
    segmentBefore a c = true := by
  rw [segmentBefore_iff] at hFirst hSecond ⊢
  exact segmentCmp_trans hFirst hSecond

theorem ne_of_segmentBefore
    {a b : String}
    (hBefore : segmentBefore a b = true) :
    a ≠ b := by
  intro hSame
  rw [segmentBefore_iff,
    (segmentCmp_eq_iff a b).mpr hSame] at hBefore
  contradiction

/- Of two names one comes first, or they are the same. -/
theorem segmentBefore_of_not
    {a b : String}
    (hNot : ¬ segmentBefore a b = true)
    (hOther : a ≠ b) :
    segmentBefore b a = true := by
  rw [segmentBefore_iff] at hNot ⊢
  rw [← segmentCmp_swap]
  cases hCmp : segmentCmp a b with
  | lt => exact absurd hCmp hNot
  | eq => exact absurd ((segmentCmp_eq_iff a b).mp hCmp) hOther
  | gt => rfl

--------------------
-- Numbered Names
--------------------

/- `segment_`, a number of any width, and what follows. -/
def numberedName (digits tail : List Char) : String :=
  String.ofList ("segment_".toList ++ digits ++ tail)

end Hls

end SentinelCommand
