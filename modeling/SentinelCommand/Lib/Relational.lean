import Mathlib.Data.List.Pairwise
import Mathlib.Logic.Function.Basic

/-
  Tables of rows under a schema.

  A schema lists the columns that are never null, those
  that are unique and the foreign keys. A store is a
  population of the tables that conforms to it, and a
  `DELETE` takes a store to a store: it removes the rows
  that meet its condition, lets the cascading keys follow,
  and is refused when a reference would be left dangling.

  Key definitions include:
    * `Relational.Schema`, `Relational.Store`
    * `Relational.Store.delete`
    * `Relational.leftJoin`

  Key theorems include:
    * `Relational.cascade_of_linked`
    * `Relational.linked_without`
    * `Relational.Store.delete_plain`
    * `Relational.Store.delete_cascading`
-/

--------------------
-- Rows
--------------------

namespace Relational

inductive Cell where
  | null
  | int (n : Int)
  | text (s : String)
  deriving DecidableEq, Repr

/- SQL's `=`, which a null never meets. -/
def Cell.same : Cell → Cell → Bool
| .null, _ => false
| a, b => a == b

abbrev Row : Type :=
  List (String × Cell)

/- A column that a row does not name is null. -/
def Row.cell (row : Row) (column : String) : Cell :=
  (row.lookup column).getD .null

/- `WHERE column = $1`. -/
def Row.has (column : String) (value : Cell) (row : Row) : Bool :=
  (row.cell column).same value

theorem Cell.same_iff {a b : Cell} :
    a.same b = true ↔ a = b ∧ a ≠ .null := by
  cases a <;> simp [Cell.same]

theorem Cell.same_comm (a b : Cell) :
    a.same b = b.same a := by
  apply Bool.eq_iff_iff.mpr
  rw [Cell.same_iff, Cell.same_iff]
  constructor
  · rintro ⟨rfl, hNull⟩
    exact ⟨rfl, hNull⟩
  · rintro ⟨rfl, hNull⟩
    exact ⟨rfl, hNull⟩

theorem Cell.same_trans
    {a b c : Cell}
    (hLeft : a.same b = true)
    (hRight : b.same c = true) :
    a.same c = true := by
  rcases Cell.same_iff.mp hLeft with ⟨rfl, -⟩
  exact hRight

theorem Cell.same_self
    {a : Cell}
    (hNull : a ≠ .null) :
    a.same a = true :=
  Cell.same_iff.mpr ⟨rfl, hNull⟩

/- `LEFT JOIN right ON ...`, nulls where nothing matches. -/
def leftJoin
    {Left : Type}
    (on : Left → Row → Bool)
    (left : List Left)
    (right : List Row) : List (Left × Option Row) :=
  left.flatMap (fun a =>
    match right.filter (on a) with
    | [] => [(a, none)]
    | matching => matching.map (fun b => (a, some b)))

/- Every row on the left is there, alone or with its matches. -/
theorem mem_leftJoin_some
    {Left : Type}
    {on : Left → Row → Bool}
    {left : List Left}
    {right : List Row}
    {a : Left}
    {b : Row} :
    (a, some b) ∈ leftJoin on left right ↔
      a ∈ left ∧ b ∈ right ∧ on a b = true := by
  unfold leftJoin
  rw [List.mem_flatMap]
  constructor
  · rintro ⟨first, hFirst, hPair⟩
    cases hMatching : right.filter (on first) with
    | nil =>
        rw [hMatching] at hPair
        simp at hPair
    | cons b' rest =>
        rw [hMatching] at hPair
        rcases List.mem_map.mp hPair with ⟨other, hOther, hEq⟩
        rw [← hMatching, List.mem_filter] at hOther
        simp only [Prod.mk.injEq, Option.some.injEq] at hEq
        rcases hEq with ⟨rfl, rfl⟩
        exact ⟨hFirst, hOther.1, hOther.2⟩
  · rintro ⟨hLeft, hRight, hOn⟩
    have hIn : b ∈ right.filter (on a) :=
      List.mem_filter.mpr ⟨hRight, hOn⟩
    refine ⟨a, hLeft, ?_⟩
    cases hMatching : right.filter (on a) with
    | nil =>
        rw [hMatching] at hIn
        exact absurd hIn List.not_mem_nil
    | cons b' rest =>
        rw [hMatching] at hIn
        exact List.mem_map.mpr ⟨b, hIn, rfl⟩

theorem exists_mem_leftJoin
    {Left : Type}
    {on : Left → Row → Bool}
    {left : List Left}
    {right : List Row}
    {a : Left} :
    (∃ b, (a, b) ∈ leftJoin on left right) ↔ a ∈ left := by
  unfold leftJoin
  constructor
  · rintro ⟨b, hPair⟩
    rcases List.mem_flatMap.mp hPair with ⟨first, hFirst, hIn⟩
    have hSame : a = first := by
      cases hMatching : right.filter (on first) with
      | nil =>
          rw [hMatching] at hIn
          exact (Prod.mk.inj (List.mem_singleton.mp hIn)).1
      | cons b' rest =>
          rw [hMatching] at hIn
          rcases List.mem_map.mp hIn with ⟨other, -, hEq⟩
          exact (Prod.mk.inj hEq).1.symm
    exact hSame ▸ hFirst
  · intro hLeft
    cases hMatching : right.filter (on a) with
    | nil =>
        refine ⟨none, List.mem_flatMap.mpr ⟨a, hLeft, ?_⟩⟩
        rw [hMatching]
        exact List.mem_singleton.mpr rfl
    | cons b' rest =>
        refine ⟨some b', List.mem_flatMap.mpr ⟨a, hLeft, ?_⟩⟩
        rw [hMatching]
        exact List.mem_cons_self

--------------------
-- Schemas
--------------------

inductive OnDelete where
  | noAction
  | cascade
  deriving DecidableEq, Repr

structure ForeignKey (Table : Type) where
  child : Table
  column : String
  parent : Table
  parentColumn : String
  onDelete : OnDelete
  deriving DecidableEq

/- Parents come first among the cascading keys. -/
structure Schema (Table : Type) where
  notNull : List (Table × String)
  unique : List (Table × String)
  links : List (ForeignKey Table)

variable {Table : Type}

abbrev Rows (Table : Type) : Type :=
  Table → List Row

/- A null refers to nothing and is in order. -/
def ForeignKey.holds
    (link : ForeignKey Table)
    (rows : Rows Table)
    (row : Row) : Bool :=
  row.cell link.column == .null ||
    (rows link.parent).any
      (fun parent =>
        (row.cell link.column).same
          (parent.cell link.parentColumn))

def Linked
    (links : List (ForeignKey Table))
    (rows : Rows Table) : Prop :=
  ∀ link ∈ links, ∀ row ∈ rows link.child,
    link.holds rows row = true

instance
    (links : List (ForeignKey Table))
    (rows : Rows Table) :
    Decidable (Linked links rows) :=
  inferInstanceAs
    (Decidable
      (∀ link ∈ links, ∀ row ∈ rows link.child,
        link.holds rows row = true))

/- No two rows have one value in the column. -/
def Distinct (column : String) (rows : List Row) : Prop :=
  rows.Pairwise
    (fun a b => (a.cell column).same (b.cell column) = false)

instance (column : String) (rows : List Row) :
    Decidable (Distinct column rows) :=
  inferInstanceAs (Decidable (List.Pairwise _ rows))

structure Conforms
    (schema : Schema Table)
    (rows : Rows Table) : Prop where
  notNull :
    ∀ column ∈ schema.notNull, ∀ row ∈ rows column.1,
      row.cell column.2 ≠ .null
  unique :
    ∀ column ∈ schema.unique, Distinct column.2 (rows column.1)
  linked : Linked schema.links rows

structure Store (schema : Schema Table) where
  rows : Rows Table
  conforms : Conforms schema rows

theorem holds_iff
    {link : ForeignKey Table}
    {rows : Rows Table}
    {row : Row} :
    link.holds rows row = true ↔
      row.cell link.column ≠ .null →
        ∃ parent ∈ rows link.parent,
          (row.cell link.column).same
            (parent.cell link.parentColumn) = true := by
  unfold ForeignKey.holds
  rw [Bool.or_eq_true, beq_iff_eq, List.any_eq_true]
  constructor
  · rintro (hNull | hParent) hNotNull
    · exact absurd hNull hNotNull
    · exact hParent
  · intro hParent
    by_cases hNull : row.cell link.column = .null
    · exact Or.inl hNull
    · exact Or.inr (hParent hNull)

theorem holds_congr
    {link : ForeignKey Table}
    {rows rows' : Rows Table}
    {row : Row}
    (hParent : rows' link.parent = rows link.parent) :
    link.holds rows' row = link.holds rows row := by
  unfold ForeignKey.holds
  rw [hParent]

/- Two rows of a table that agree on a unique column. -/
theorem Distinct.eq_of_same
    {column : String}
    {rows : List Row}
    (hDistinct : Distinct column rows)
    {a b : Row}
    (hA : a ∈ rows)
    (hB : b ∈ rows)
    (hSame : (a.cell column).same (b.cell column) = true) :
    a = b := by
  have hSymm : Std.Symm
      (fun a b : Row =>
        (a.cell column).same (b.cell column) = false) :=
    ⟨fun a b h => (Cell.same_comm _ _).trans h⟩
  by_contra hNe
  have hApart := List.Pairwise.forall hDistinct hA hB hNe
  rw [hSame] at hApart
  contradiction

--------------------
-- Deletes
--------------------

variable {Table : Type} [DecidableEq Table]

/- A table without the rows that meet the condition. -/
def without
    (rows : Rows Table)
    (table : Table)
    (gone : Row → Bool) : Rows Table :=
  Function.update rows table
    ((rows table).filter (fun row => !gone row))

/- The children of a cascading key that lost their parent. -/
def cascadeOne
    (rows : Rows Table)
    (link : ForeignKey Table) : Rows Table :=
  match link.onDelete with
  | .noAction => rows
  | .cascade =>
      without rows link.child
        (fun row => !link.holds rows row)

def cascade
    (links : List (ForeignKey Table))
    (rows : Rows Table) : Rows Table :=
  links.foldl cascadeOne rows

theorem rows_without
    (rows : Rows Table)
    (table other : Table)
    (gone : Row → Bool) :
    without rows table gone other =
      (rows other).filter
        (fun row => !(decide (other = table) && gone row)) := by
  unfold without
  by_cases hSame : other = table
  · subst hSame
    simp
  · rw [Function.update_of_ne hSame, decide_eq_false hSame]
    exact (List.filter_eq_self.mpr (fun _ _ => rfl)).symm

theorem without_sublist
    (rows : Rows Table)
    (table other : Table)
    (gone : Row → Bool) :
    (without rows table gone other).Sublist (rows other) := by
  rw [rows_without]
  exact List.filter_sublist

theorem cascadeOne_sublist
    (rows : Rows Table)
    (link : ForeignKey Table)
    (other : Table) :
    (cascadeOne rows link other).Sublist (rows other) := by
  cases hAction : link.onDelete with
  | noAction =>
      simp only [cascadeOne, hAction]
      exact List.Sublist.refl _
  | cascade =>
      simp only [cascadeOne, hAction]
      exact without_sublist rows link.child other _

theorem cascade_sublist
    (links : List (ForeignKey Table))
    (rows : Rows Table)
    (other : Table) :
    (cascade links rows other).Sublist (rows other) := by
  induction links generalizing rows with
  | nil => exact List.Sublist.refl _
  | cons link rest ih =>
      exact (ih (cascadeOne rows link)).trans
        (cascadeOne_sublist rows link other)

/- A table that no cascading key is on keeps its rows. -/
theorem cascade_eq_of_not_child
    {links : List (ForeignKey Table)}
    {other : Table}
    (rows : Rows Table)
    (hNot :
      ∀ link ∈ links, link.onDelete = .cascade →
        link.child ≠ other) :
    cascade links rows other = rows other := by
  induction links generalizing rows with
  | nil => rfl
  | cons link rest ih =>
      have hRest :=
        ih (cascadeOne rows link)
          (fun next hNext => hNot next
            (List.mem_cons_of_mem link hNext))
      refine hRest.trans ?_
      cases hAction : link.onDelete with
      | noAction => simp only [cascadeOne, hAction]
      | cascade =>
          simp only [cascadeOne, hAction]
          exact Function.update_of_ne
            (hNot link List.mem_cons_self hAction).symm _ _

/- With every reference in order there is nothing to follow. -/
theorem cascade_of_linked
    {links : List (ForeignKey Table)}
    {rows : Rows Table}
    (hLinked : Linked links rows) :
    cascade links rows = rows := by
  induction links with
  | nil => rfl
  | cons link rest ih =>
      have hHead : cascadeOne rows link = rows := by
        cases hAction : link.onDelete with
        | noAction => simp only [cascadeOne, hAction]
        | cascade =>
            simp only [cascadeOne, hAction, without]
            apply Function.update_eq_self_iff.mpr
            apply List.filter_eq_self.mpr
            intro row hRow
            rw [hLinked link List.mem_cons_self row hRow]
            rfl
      unfold cascade
      rw [List.foldl_cons, hHead]
      exact ih (fun next hNext => hLinked next
        (List.mem_cons_of_mem link hNext))

/-
  A `DELETE`, with the number of rows it reports, which
  leaves out those that follow by a cascade. It fails when
  a reference would dangle.
-/
def Store.delete
    {schema : Schema Table}
    (store : Store schema)
    (table : Table)
    (gone : Row → Bool) : Option (Store schema × Nat) :=
  let rows :=
    cascade schema.links (without store.rows table gone)
  if hLinked : Linked schema.links rows then
    some
      ({ rows := rows
         conforms := by
          have hSub (other : Table) :
              (rows other).Sublist (store.rows other) :=
            (cascade_sublist _ _ other).trans
              (without_sublist _ _ other _)
          constructor
          · intro column hColumn row hRow
            exact store.conforms.notNull column hColumn row
              ((hSub column.1).subset hRow)
          · intro column hColumn
            exact (store.conforms.unique column hColumn).sublist
              (hSub column.1)
          · exact hLinked },
        ((store.rows table).filter gone).length)
  else
    none

/- What a delete that is not refused leaves and reports. -/
theorem Store.delete_eq_some
    {schema : Schema Table}
    {store store' : Store schema}
    {table : Table}
    {gone : Row → Bool}
    {count : Nat}
    (hDelete : store.delete table gone = some (store', count)) :
    store'.rows =
      cascade schema.links (without store.rows table gone) := by
  unfold Store.delete at hDelete
  dsimp only at hDelete
  split at hDelete
  · cases hDelete
    rfl
  · contradiction

theorem Store.delete_isSome
    {schema : Schema Table}
    (store : Store schema)
    {table : Table}
    {gone : Row → Bool}
    (hLinked :
      Linked schema.links
        (cascade schema.links (without store.rows table gone))) :
    (store.delete table gone).isSome = true := by
  unfold Store.delete
  dsimp only
  rw [dif_pos hLinked]
  rfl

/-
  Nothing follows and nothing dangles when no row that
  stays refers to a row that goes.
-/
theorem linked_without
    {links : List (ForeignKey Table)}
    {rows : Rows Table}
    {table : Table}
    {gone : Row → Bool}
    (hLinked : Linked links rows)
    (hFree :
      ∀ link ∈ links, link.parent = table →
        ∀ row ∈ without rows table gone link.child,
          ∀ parent ∈ rows table,
            (row.cell link.column).same
                (parent.cell link.parentColumn) = true →
              gone parent = false) :
    Linked links (without rows table gone) := by
  intro link hLink row hRow
  have hBefore :=
    hLinked link hLink row
      ((without_sublist rows table link.child gone).subset hRow)
  rw [holds_iff] at hBefore ⊢
  intro hNotNull
  rcases hBefore hNotNull with ⟨parent, hParent, hSame⟩
  refine ⟨parent, ?_, hSame⟩
  rw [rows_without]
  refine List.mem_filter.mpr ⟨hParent, ?_⟩
  by_cases hTable : link.parent = table
  · have hStays :=
      hFree link hLink hTable row hRow parent
        (hTable ▸ hParent) hSame
    rw [hStays]
    simp
  · simp [hTable]

/- Such a delete goes through and removes its rows only. -/
theorem Store.delete_plain
    {schema : Schema Table}
    {store : Store schema}
    {table : Table}
    {gone : Row → Bool}
    (hFree :
      ∀ link ∈ schema.links, link.parent = table →
        ∀ row ∈ without store.rows table gone link.child,
          ∀ parent ∈ store.rows table,
            (row.cell link.column).same
                (parent.cell link.parentColumn) = true →
              gone parent = false) :
    ∃ store' count,
      store.delete table gone = some (store', count) ∧
        store'.rows = without store.rows table gone := by
  have hLinked :=
    linked_without store.conforms.linked hFree
  have hSame := cascade_of_linked hLinked
  have hSome :=
    Store.delete_isSome store (hSame.symm ▸ hLinked)
  rcases Option.isSome_iff_exists.mp hSome with
    ⟨⟨store', count⟩, hDelete⟩
  exact ⟨store', count, hDelete,
    (Store.delete_eq_some hDelete).trans hSame⟩

--------------------
-- Cascades
--------------------

/-
  A cascade takes rows of a table only before the keys that
  refer to it are looked at, and none of a table that a key
  without a cascade refers to.
-/
structure Layered (links : List (ForeignKey Table)) : Prop where
  ordered :
    links.Pairwise
      (fun first next =>
        next.onDelete = .cascade → first.parent ≠ next.child)
  apart :
    ∀ link ∈ links, link.onDelete = .cascade →
      link.parent ≠ link.child
  quiet :
    ∀ link ∈ links, link.onDelete = .noAction →
      ∀ next ∈ links, next.onDelete = .cascade →
        next.child ≠ link.parent

/- The cascading keys are in order once they were followed. -/
theorem holds_cascade
    {links : List (ForeignKey Table)}
    (rows : Rows Table)
    (hOrdered :
      links.Pairwise
        (fun first next =>
          next.onDelete = .cascade → first.parent ≠ next.child))
    (hApart :
      ∀ link ∈ links, link.onDelete = .cascade →
        link.parent ≠ link.child)
    {link : ForeignKey Table}
    (hLink : link ∈ links)
    (hCascade : link.onDelete = .cascade)
    {row : Row}
    (hRow : row ∈ cascade links rows link.child) :
    link.holds (cascade links rows) row = true := by
  induction links generalizing rows with
  | nil => exact absurd hLink List.not_mem_nil
  | cons first rest ih =>
      rw [List.pairwise_cons] at hOrdered
      rcases List.mem_cons.mp hLink with rfl | hIn
      · have hParent :
            cascade (link :: rest) rows link.parent =
              rows link.parent := by
          refine
            (cascade_eq_of_not_child (cascadeOne rows link)
              (fun next hNext hAction =>
                (hOrdered.1 next hNext hAction).symm)).trans ?_
          simp only [cascadeOne, hCascade]
          exact Function.update_of_ne
            (hApart link List.mem_cons_self hCascade) _ _
        have hKept :=
          (cascade_sublist rest (cascadeOne rows link)
            link.child).subset hRow
        simp only [cascadeOne, hCascade] at hKept
        rw [rows_without, List.mem_filter] at hKept
        rw [holds_congr hParent]
        simpa using hKept.2
      · exact ih (cascadeOne rows first) hOrdered.2
          (fun next hNext =>
            hApart next (List.mem_cons_of_mem first hNext))
          hIn hRow

theorem linked_cascade
    {links : List (ForeignKey Table)}
    {rows : Rows Table}
    {table : Table}
    (gone : Row → Bool)
    (hLayered : Layered links)
    (hLinked : Linked links rows)
    (hFree :
      ∀ link ∈ links, link.onDelete = .noAction →
        link.parent ≠ table) :
    Linked links (cascade links (without rows table gone)) := by
  intro link hLink row hRow
  cases hAction : link.onDelete with
  | cascade =>
      exact holds_cascade (without rows table gone)
        hLayered.ordered hLayered.apart hLink hAction hRow
  | noAction =>
      have hParent :
          cascade links (without rows table gone) link.parent =
            rows link.parent := by
        refine (cascade_eq_of_not_child _
          (hLayered.quiet link hLink hAction)).trans ?_
        exact Function.update_of_ne
          (hFree link hLink hAction) _ _
      rw [holds_congr hParent]
      apply hLinked link hLink row
      exact (without_sublist rows table link.child gone).subset
        ((cascade_sublist links _ link.child).subset hRow)

/- A delete that only cascading keys are about. -/
theorem Store.delete_cascading
    {schema : Schema Table}
    (store : Store schema)
    {table : Table}
    (gone : Row → Bool)
    (hLayered : Layered schema.links)
    (hFree :
      ∀ link ∈ schema.links, link.onDelete = .noAction →
        link.parent ≠ table) :
    ∃ store' count,
      store.delete table gone = some (store', count) ∧
        store'.rows =
          cascade schema.links
            (without store.rows table gone) := by
  have hSome :=
    Store.delete_isSome store
      (linked_cascade gone hLayered store.conforms.linked hFree)
  rcases Option.isSome_iff_exists.mp hSome with
    ⟨⟨store', count⟩, hDelete⟩
  exact ⟨store', count, hDelete,
    Store.delete_eq_some hDelete⟩

end Relational
