import SentinelCommand.Lib.Like

/-
  The filters of the three log pages. A WHERE is built one
  given filter at a time, each condition under the number of
  its bind; the count and the page bind the values afresh, the
  download takes those of the building.

  Correctness is proven by:
    * `LogFilter.rebound_eq_binds`
    * `LogFilter.selects_auditLogs_iff`
-/

--------------------
-- Conditions
--------------------

namespace SentinelCommand

namespace LogFilter

variable {same : Char → Char → Bool}

inductive Column where
  | orgId | event | username | toolName | keyName | status
  | cameraId | userEmail | userId
  deriving DecidableEq, Repr

/- A stored row; what is absent is NULL. -/
abbrev Row : Type :=
  Column → Option (List Char)

inductive Test where
  | equal (column : Column)
  | ilike (columns : List Column)
  deriving DecidableEq, Repr

/- NULL is neither equal to a value nor like a pattern. -/
def Test.passes
    (same : Char → Char → Bool)
    (row : Row) (value : List Char) :
    Test → Bool
| .equal column => row column == some value
| .ilike columns =>
    columns.any (fun column =>
      (row column).any (Like.covers same value))

theorem passes_equal_iff
    {row : Row} {column : Column} {value : List Char} :
    (Test.equal column).passes same row value = true ↔
      row column = some value := by
  simp [Test.passes]

structure Clause where
  test : Test
  bind : Nat
  deriving DecidableEq, Repr

/- Binds are numbered from one. -/
def Clause.holds
    (same : Char → Char → Bool)
    (row : Row) (binds : List (List Char)) (c : Clause) : Bool :=
  binds[c.bind - 1]?.any (fun v => c.test.passes same row v)

def selects
    (same : Char → Char → Bool)
    (clauses : List Clause)
    (binds : List (List Char)) (row : Row) : Bool :=
  clauses.all (Clause.holds same row binds)

--------------------
-- Building a WHERE
--------------------

/- Every condition has its bind. -/
structure Where where
  clauses : List Clause
  binds : List (List Char)
  bound : ∀ c ∈ clauses, c.bind - 1 < binds.length

def forOrg (org : List Char) : Where where
  clauses := [⟨.equal .orgId, 1⟩]
  binds := [org]
  bound := by simp

def Where.push
    (w : Where) (test : Test) (value : List Char) : Where where
  clauses := w.clauses ++ [⟨test, w.binds.length + 1⟩]
  binds := w.binds ++ [value]
  bound := by
    intro c hMem
    rw [List.length_append]
    rcases List.mem_append.mp hMem with hOld | hNew
    · exact Nat.lt_add_right 1 (w.bound c hOld)
    · rw [List.mem_singleton.mp hNew]
      exact Nat.lt_add_one w.binds.length

/- A filter that is not given adds nothing. -/
abbrev Filter : Type :=
  Test × Option (List Char)

def Where.narrow (w : Where) (f : Filter) : Where :=
  f.2.elim w (w.push f.1)

def logWhere (org : List Char) (filters : List Filter) : Where :=
  filters.foldl Where.narrow (forOrg org)

/- What `count_q` and `page_q` bind. -/
def rebound
    (org : List Char) (filters : List Filter) :
    List (List Char) :=
  org :: filters.filterMap Prod.snd

def Where.selects
    (same : Char → Char → Bool) (w : Where) (row : Row) : Bool :=
  LogFilter.selects same w.clauses w.binds row

theorem selects_push
    {w : Where} {test : Test} {value : List Char} {row : Row} :
    (w.push test value).selects same row =
      (w.selects same row && test.passes same row value) := by
  have hOld :
      w.clauses.all
          (Clause.holds same row (w.binds ++ [value])) =
        w.clauses.all (Clause.holds same row w.binds) := by
    rw [Bool.eq_iff_iff, List.all_eq_true, List.all_eq_true]
    apply forall₂_congr
    intro c hMem
    rw [Clause.holds,
      List.getElem?_append_left (w.bound c hMem), Clause.holds]
  rw [Where.selects, Where.push, selects, List.all_append, hOld]
  simp [Where.selects, selects, Clause.holds]

theorem selects_narrow_iff
    {w : Where} {f : Filter} {row : Row} :
    (w.narrow f).selects same row = true ↔
      w.selects same row = true ∧
        ∀ value ∈ f.2, f.1.passes same row value = true := by
  rcases f with ⟨test, value⟩
  cases value with
  | none => simp [Where.narrow]
  | some value => simp [Where.narrow, selects_push]

theorem selects_foldl_iff
    {w : Where} {filters : List Filter} {row : Row} :
    (filters.foldl Where.narrow w).selects same row = true ↔
      w.selects same row = true ∧
        ∀ f ∈ filters, ∀ value ∈ f.2,
          f.1.passes same row value = true := by
  induction filters generalizing w with
  | nil => simp
  | cons f rest ih =>
      rw [List.foldl_cons, ih, selects_narrow_iff,
        List.forall_mem_cons, and_assoc]

theorem binds_foldl
    {w : Where} {filters : List Filter} :
    (filters.foldl Where.narrow w).binds =
      w.binds ++ filters.filterMap Prod.snd := by
  induction filters generalizing w with
  | nil => simp
  | cons f rest ih =>
      rcases f with ⟨test, value⟩
      rw [List.foldl_cons, ih]
      cases value <;> simp [Where.narrow, Where.push]

/- The count, the page and the download select the same. -/
theorem rebound_eq_binds
    {org : List Char} {filters : List Filter} :
    rebound org filters = (logWhere org filters).binds := by
  rw [logWhere, binds_foldl]
  rfl

theorem selects_rebound_iff
    {org : List Char} {filters : List Filter} {row : Row} :
    selects same (logWhere org filters).clauses
        (rebound org filters) row = true ↔
      row .orgId = some org ∧
        ∀ f ∈ filters, ∀ value ∈ f.2,
          f.1.passes same row value = true := by
  have hOrg :
      (forOrg org).selects same row = true ↔
        row .orgId = some org := by
    simp [Where.selects, selects, forOrg, Clause.holds,
      passes_equal_iff]
  rw [rebound_eq_binds, ← hOrg]
  exact selects_foldl_iff

--------------------
-- The three pages
--------------------

def replace
    (c : Char) (into : List Char) (text : List Char) : List Char :=
  text.flatMap (fun d => if d = c then into else [d])

def escapeLike (input : List Char) : List Char :=
  replace '_' ['\\', '_']
    (replace '%' ['\\', '%'] (replace '\\' ['\\', '\\'] input))

/- The backslashes that mark `%` and `_` come after the typed
   ones are doubled, and are not doubled again. -/
theorem escapeLike_eq_quoted {input : List Char} :
    escapeLike input = Like.quoted input := by
  induction input with
  | nil => rfl
  | cons c rest ih =>
      have hCons :
          escapeLike (c :: rest) =
            escapeLike [c] ++ escapeLike rest := by
        simp [escapeLike, replace]
      have hOne : escapeLike [c] = Like.quoted [c] := by
        by_cases hBack : c = '\\'
        · subst hBack
          decide
        by_cases hPercent : c = '%'
        · subst hPercent
          decide
        by_cases hScore : c = '_'
        · subst hScore
          decide
        simp [escapeLike, replace, Like.quoted, Like.special,
          hBack, hPercent, hScore]
      rw [hCons, hOne, ih]
      simp [Like.quoted]

def around (text : List Char) : List Char :=
  '%' :: (text ++ ['%'])

def auditFilters
    (event username : Option (List Char)) : List Filter :=
  [(.equal .event, event),
   (.ilike [.username],
    username.map (fun u => around (escapeLike u)))]

def mcpFilters
    (toolName keyName status : Option (List Char)) :
    List Filter :=
  [(.equal .toolName, toolName),
   (.ilike [.keyName],
    keyName.map (fun k => around (escapeLike k))),
   (.equal .status, status)]

/- Here the typed wildcards stay wildcards. -/
def streamFilters
    (cameraId userFilter : Option (List Char)) : List Filter :=
  [(.equal .cameraId, cameraId),
   (.ilike [.userEmail, .userId], userFilter.map around)]

/- The stored text has the typed one somewhere. -/
def Contains
    (same : Char → Char → Bool)
    (typed : List Char) (stored : Option (List Char)) : Prop :=
  ∃ a found b, stored = some (a ++ found ++ b) ∧
    Like.Alike same typed found

theorem passes_quoted_iff
    {row : Row} {columns : List Column} {typed : List Char} :
    (Test.ilike columns).passes same row
        (around (Like.quoted typed)) = true ↔
      ∃ column ∈ columns, Contains same typed (row column) := by
  rw [Test.passes, List.any_eq_true]
  apply exists_congr
  intro column
  apply and_congr_right
  intro _
  cases row column with
  | none => simp [Contains]
  | some stored =>
      simpa [Contains, around] using Like.covers_contains_iff

theorem selects_auditLogs_iff
    {org : List Char}
    {event username : Option (List Char)} {row : Row} :
    selects same
        (logWhere org (auditFilters event username)).clauses
        (rebound org (auditFilters event username)) row = true ↔
      row .orgId = some org ∧
        (∀ e ∈ event, row .event = some e) ∧
        ∀ u ∈ username, Contains same u (row .username) := by
  rw [selects_rebound_iff]
  simp [auditFilters, passes_equal_iff, passes_quoted_iff,
    escapeLike_eq_quoted]

theorem selects_mcpLogs_iff
    {org : List Char}
    {toolName keyName status : Option (List Char)} {row : Row} :
    selects same
        (logWhere org (mcpFilters toolName keyName status)).clauses
        (rebound org (mcpFilters toolName keyName status))
        row = true ↔
      row .orgId = some org ∧
        (∀ t ∈ toolName, row .toolName = some t) ∧
        (∀ k ∈ keyName, Contains same k (row .keyName)) ∧
        ∀ s ∈ status, row .status = some s := by
  rw [selects_rebound_iff]
  simp [mcpFilters, passes_equal_iff, passes_quoted_iff,
    escapeLike_eq_quoted]

/- A typed text without wildcards is its own quotation. -/
theorem selects_streamLogs_iff
    {org : List Char}
    {cameraId userFilter : Option (List Char)} {row : Row}
    (hPlain : ∀ u ∈ userFilter, Like.quoted u = u) :
    selects same
        (logWhere org (streamFilters cameraId userFilter)).clauses
        (rebound org (streamFilters cameraId userFilter))
        row = true ↔
      row .orgId = some org ∧
        (∀ c ∈ cameraId, row .cameraId = some c) ∧
        ∀ u ∈ userFilter,
          Contains same u (row .userEmail) ∨
            Contains same u (row .userId) := by
  rw [selects_rebound_iff]
  cases userFilter with
  | none => simp [streamFilters, passes_equal_iff]
  | some u =>
      have hUser :=
        @passes_quoted_iff same row [.userEmail, .userId] u
      rw [hPlain u rfl] at hUser
      simp [streamFilters, passes_equal_iff, hUser]

end LogFilter

end SentinelCommand
