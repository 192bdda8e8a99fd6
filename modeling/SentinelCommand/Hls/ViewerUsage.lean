import Mathlib.Data.List.AList
import Mathlib.Data.List.Sort
import SentinelCommand.Lib.Calls

/-
  The viewer-second counters of `HlsCache`: the seconds not
  yet written, the totals last read or written, and the
  table `org_monthly_usage` they are flushed to.

  A call goes on in the parts between its database
  statements. A total that its column cannot hold is one of
  the ways in which a statement fails.

  Key definitions include:
    * `Hls.ViewerUsage`
    * `Hls.recordViewerSecond`, `Hls.forgetOrgViewerUsage`

  Key theorems include:
    * `Hls.lookup_retainKeys`
    * `Hls.rowsFor_drained`
-/

--------------------
-- The Counters
--------------------

namespace SentinelCommand

namespace Hls

/- An organization and a month, as `YYYY-MM`. -/
abbrev UsageKey : Type :=
  String × String

abbrev UsageTable : Type :=
  AList (fun _ : UsageKey => Int)

structure ViewerUsage where
  pending : UsageTable
  cached : UsageTable

/- The counters, the table and the current month. -/
structure Usage where
  viewer : ViewerUsage
  rows : UsageTable
  month : String

def UsageTable.count (table : UsageTable) (key : UsageKey) : Int :=
  (table.lookup key).getD 0

/- `HashMap::retain`, by key. -/
def retainKeys
    (keep : UsageKey → Bool)
    (table : UsageTable) : UsageTable where
  entries := table.entries.filter (fun entry => keep entry.1)
  nodupKeys :=
    List.NodupKeys.sublist List.filter_sublist
      table.nodupKeys

def recordViewerSecond
    (viewer : ViewerUsage)
    (key : UsageKey) : ViewerUsage :=
  { viewer with
    pending :=
      viewer.pending.insert key
        (viewer.pending.count key + 1) }

def cachedViewerSeconds
    (viewer : ViewerUsage)
    (key : UsageKey) : Option Int :=
  (viewer.cached.lookup key).map
    (fun total => total + viewer.pending.count key)

/- The stored total and what it answers. -/
def storeCachedViewerSeconds
    (viewer : ViewerUsage)
    (key : UsageKey)
    (seconds : Int) : ViewerUsage × Int :=
  ({ viewer with cached := viewer.cached.insert key seconds },
    seconds + viewer.pending.count key)

def forgetOrgViewerUsage
    (viewer : ViewerUsage)
    (orgId : String) : ViewerUsage where
  pending := retainKeys (fun key => key.1 ≠ orgId) viewer.pending
  cached := retainKeys (fun key => key.1 ≠ orgId) viewer.cached

/- `i32::try_from(delta).unwrap_or(i32::MAX)`. -/
def clampI32 (delta : Int) : Int :=
  if delta < 2 ^ 31 then delta else 2 ^ 31 - 1

/- The drained rows, in the order the map is walked in. -/
def drained
    (viewer : ViewerUsage)
    (rank : UsageKey → Nat) : List (UsageKey × Int) :=
  (viewer.pending.entries.map
    (fun entry => (entry.1, entry.2))).insertionSort
      (fun a b => rank a.1 ≤ rank b.1)

--------------------
-- Calls in Progress
--------------------

/-
  How far a call has come. A call of `warm_viewer_seconds`
  remembers the table's total from when it started.
-/
inductive UsageCall where
  | warming (orgId : String) (since : Int)
  | warmRead (orgId : String) (since seconds : Int)
  | warmed (orgId : String) (since answer : Int)
  | flushing (touched : Nat) (rows : List (UsageKey × Int))
  | storing
      (touched : Nat)
      (key : UsageKey)
      (total : Int)
      (rest : List (UsageKey × Int))
  | flushed (touched : Nat)
  | erasing (orgId : String)
  | deleted (orgId : String)
  | erased (orgId : String)
  | eraseFailed (orgId : String)
  deriving DecidableEq, Repr

def UsageCall.finished : UsageCall → Bool
| .warmed _ _ _ => true
| .flushed _ => true
| .erased _ => true
| .eraseFailed _ => true
| _ => false

inductive UsageStart where
  | record (orgId : String)
  | warm (orgId : String)
  | flush (rank : UsageKey → Nat)
  | erase (orgId : String)
  | turn (month : String)

/- The first parts, up to the first statement. -/
def beginUsage
    (s : Usage) :
    UsageStart → Usage × Option UsageCall
| .record orgId =>
    ({ s with
        viewer := recordViewerSecond s.viewer (orgId, s.month) },
      none)
| .warm orgId =>
    let since := s.rows.count (orgId, s.month)
    match cachedViewerSeconds s.viewer (orgId, s.month) with
    | some total => (s, some (.warmed orgId since total))
    | none => (s, some (.warming orgId since))
| .flush rank =>
    if s.viewer.pending.entries.isEmpty then
      (s, some (.flushed 0))
    else
      ({ s with viewer := { s.viewer with pending := ∅ } },
        some
          (.flushing (drained s.viewer rank).length
            (drained s.viewer rank)))
| .erase orgId => (s, some (.erasing orgId))
| .turn month => ({ s with month := month }, none)

/-
  A call goes on with its next statement, which may fail, or
  with what follows it under the lock.
-/
def resumeUsage
    (s : Usage) :
    UsageCall → Bool → Usage × UsageCall
| .warming orgId since, fails =>
    -- A failed read counts as zero.
    (s,
      .warmRead orgId since
        (if fails then 0 else s.rows.count (orgId, s.month)))
| .warmRead orgId since seconds, _ =>
    let stored :=
      storeCachedViewerSeconds s.viewer (orgId, s.month) seconds
    ({ s with viewer := stored.1 },
      .warmed orgId since stored.2)
| .flushing touched [], _ => (s, .flushed touched)
| .flushing touched ((key, delta) :: rest), fails =>
    if delta ≤ 0 then
      (s, .flushing touched rest)
    else if fails then
      -- The increments that are left are lost.
      (s, .flushed 0)
    else
      let total := s.rows.count key + clampI32 delta
      ({ s with rows := s.rows.insert key total },
        .storing touched key total rest)
| .storing touched key total rest, _ =>
    ({ s with
        viewer :=
          { s.viewer with
            cached := s.viewer.cached.insert key total } },
      .flushing touched rest)
| .erasing orgId, fails =>
    if fails then
      (s, .eraseFailed orgId)
    else
      -- `delete_org_data`, as far as this table goes.
      ({ s with
          rows := retainKeys (fun key => key.1 ≠ orgId) s.rows },
        .deleted orgId)
| .deleted orgId, _ =>
    ({ s with viewer := forgetOrgViewerUsage s.viewer orgId },
      .erased orgId)
| call, _ => (s, call)

def usageProgram :
    Calls.Program Usage UsageCall UsageStart Bool where
  begin := beginUsage
  resume := resumeUsage

abbrev UsageConfig : Type :=
  Calls.Config Usage UsageCall

abbrev UsageEvent : Type :=
  Calls.Event UsageStart Bool

def usageStep : UsageConfig → UsageEvent → UsageConfig :=
  Calls.step usageProgram

--------------------
-- Tables
--------------------

@[simp] theorem count_insert_self
    (table : UsageTable)
    (key : UsageKey)
    (value : Int) :
    UsageTable.count (table.insert key value) key = value := by
  simp [UsageTable.count]

theorem count_insert_of_ne
    {key other : UsageKey}
    (table : UsageTable)
    (value : Int)
    (hOther : key ≠ other) :
    UsageTable.count (table.insert other value) key =
      table.count key := by
  simp [UsageTable.count, AList.lookup_insert_ne hOther]

/- A row is kept or gone, and keeps its value. -/
theorem lookup_retainKeys
    (keep : UsageKey → Bool)
    (table : UsageTable)
    (key : UsageKey) :
    (retainKeys keep table).lookup key =
      if keep key then table.lookup key else none := by
  have hMem (value : Int) :
      value ∈ (retainKeys keep table).lookup key ↔
        value ∈ table.lookup key ∧ keep key = true := by
    rw [AList.mem_lookup_iff, AList.mem_lookup_iff]
    exact List.mem_filter
  apply Option.ext
  intro value
  rw [← Option.mem_def, hMem]
  by_cases hKeep : keep key = true
  · simp [hKeep]
  · simp [hKeep]

/- The seconds that a list of rows holds for a key. -/
def rowsFor
    (key : UsageKey)
    (rows : List (UsageKey × Int)) : Int :=
  (rows.map (fun row => if row.1 = key then row.2 else 0)).sum

@[simp] theorem rowsFor_cons
    (key : UsageKey)
    (row : UsageKey × Int)
    (rest : List (UsageKey × Int)) :
    rowsFor key (row :: rest) =
      (if row.1 = key then row.2 else 0) + rowsFor key rest := by
  simp [rowsFor]

theorem rowsFor_nonneg
    {key : UsageKey}
    {rows : List (UsageKey × Int)}
    (hPos : ∀ row ∈ rows, 0 < row.2) :
    0 ≤ rowsFor key rows := by
  induction rows with
  | nil => exact Int.le_refl 0
  | cons row rest ih =>
      have hRow := hPos row List.mem_cons_self
      have hRest :=
        ih (fun other hOther =>
          hPos other (List.mem_cons_of_mem row hOther))
      rw [rowsFor_cons]
      split <;> omega

/- Each key of a table has one entry. -/
theorem rowsFor_entries
    (key : UsageKey)
    (entries : List (Sigma (fun _ : UsageKey => Int)))
    (hKeys : entries.NodupKeys) :
    rowsFor key
        (entries.map (fun entry => (entry.1, entry.2))) =
      (entries.dlookup key).getD 0 := by
  induction entries with
  | nil => rfl
  | cons entry rest ih =>
      rcases entry with ⟨first, value⟩
      have hCons := List.nodupKeys_cons.mp hKeys
      rw [List.map_cons, rowsFor_cons, ih hCons.2]
      by_cases hSame : first = key
      · subst hSame
        have hNone : rest.dlookup first = none :=
          List.dlookup_eq_none.mpr hCons.1
        rw [List.dlookup_cons_eq, hNone]
        simp
      · have hOther : key ≠ first := fun h => hSame h.symm
        rw [List.dlookup_cons_ne _ _ hOther]
        simp [hSame]

theorem rowsFor_perm
    {key : UsageKey}
    {rows rows' : List (UsageKey × Int)}
    (hPerm : rows.Perm rows') :
    rowsFor key rows = rowsFor key rows' :=
  (hPerm.map _).sum_eq

/- A drain takes what was pending for each key. -/
theorem rowsFor_drained
    (viewer : ViewerUsage)
    (rank : UsageKey → Nat)
    (key : UsageKey) :
    rowsFor key (drained viewer rank) =
      viewer.pending.count key := by
  unfold drained
  rw [rowsFor_perm (List.perm_insertionSort _ _),
    rowsFor_entries key _ viewer.pending.nodupKeys]
  rfl

theorem mem_drained
    {viewer : ViewerUsage}
    {rank : UsageKey → Nat}
    {row : UsageKey × Int}
    (hRow : row ∈ drained viewer rank) :
    viewer.pending.lookup row.1 = some row.2 := by
  unfold drained at hRow
  rw [List.mem_insertionSort] at hRow
  rcases List.mem_map.mp hRow with ⟨entry, hEntry, rfl⟩
  exact AList.mem_lookup_iff.mpr hEntry

end Hls

end SentinelCommand
