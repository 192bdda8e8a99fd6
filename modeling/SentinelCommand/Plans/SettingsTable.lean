import Mathlib.Data.List.Nodup
import SentinelCommand.Settings

/-
  The rows of `settings`, and the two statements of
  `settings::set`.

  A pair (organization, key) has no unique index, so a set
  is a select and then an update of the row it found, or an
  insert when it found none. Where no row was added in
  between, the two statements are the set of `Settings`;
  where one was, the insert leaves a second row that no
  reader sees.

  Key definitions include:
    * `Plans.SettingsTable`
    * `Plans.SettingsTable.select`

  Key theorems include:
    * `Plans.settings_write`
    * `Plans.settings_insert_taken`
-/

--------------------
-- Rows
--------------------

namespace SentinelCommand

namespace Plans

structure SettingsRow where
  id : Nat
  orgId : String
  key : String
  value : Option String
  deriving DecidableEq, Repr

/- Rows are in id order; ids are handed out once. -/
structure SettingsTable where
  rows : List SettingsRow
  nextId : Nat
  unique : (rows.map SettingsRow.id).Nodup
  fresh : ∀ row ∈ rows, row.id < nextId

def isSetting
    (orgId key : String)
    (row : SettingsRow) : Bool :=
  row.orgId == orgId && row.key == key

namespace SettingsTable

theorem fresh_nil :
    ∀ row ∈ ([] : List SettingsRow), row.id < 1 := by
  simp

/- `SELECT … LIMIT 1`. -/
def select
    (table : SettingsTable)
    (orgId key : String) : Option SettingsRow :=
  table.rows.find? (isSetting orgId key)

/- `settings::get`; a NULL value is an empty text. -/
def get
    (table : SettingsTable)
    (orgId key default : String) : String :=
  match table.select orgId key with
  | none => default
  | some row => row.value.getD ""

def setValue
    (id : Nat)
    (value : String)
    (row : SettingsRow) : SettingsRow :=
  if row.id = id then { row with value := some value } else row

@[simp] theorem setValue_id
    (id : Nat)
    (value : String)
    (row : SettingsRow) :
    (setValue id value row).id = row.id := by
  unfold setValue
  split <;> rfl

/- `UPDATE settings … WHERE id`. -/
def update
    (table : SettingsTable)
    (id : Nat)
    (value : String) : SettingsTable where
  rows := table.rows.map (setValue id value)
  nextId := table.nextId
  unique := by
    have hIds :
        (table.rows.map (setValue id value)).map
            SettingsRow.id =
          table.rows.map SettingsRow.id := by
      rw [List.map_map]
      exact List.map_congr_left
        (fun row _ => setValue_id id value row)
    rw [hIds]
    exact table.unique
  fresh := by
    intro row hRow
    rcases List.mem_map.mp hRow with ⟨old, hOld, rfl⟩
    rw [setValue_id]
    exact table.fresh old hOld

/- `INSERT INTO settings`. -/
def insert
    (table : SettingsTable)
    (orgId key value : String) : SettingsTable where
  rows :=
    table.rows ++
      [{ id := table.nextId, orgId := orgId, key := key
         value := some value }]
  nextId := table.nextId + 1
  unique := by
    rw [List.map_append]
    refine List.Nodup.append table.unique
      (List.nodup_singleton _) ?_
    intro id hOld hNew
    rcases List.mem_map.mp hOld with ⟨row, hRow, rfl⟩
    have hSame : row.id = table.nextId := by
      simpa using hNew
    have hFresh := table.fresh row hRow
    omega
  fresh := by
    intro row hRow
    rcases List.mem_append.mp hRow with hOld | hNew
    · exact Nat.lt_succ_of_lt (table.fresh row hOld)
    · rw [List.mem_singleton.mp hNew]
      exact Nat.lt_succ_self _

/- The second statement of a set, after its select. -/
def write
    (table : SettingsTable)
    (existing : Option SettingsRow)
    (orgId key value : String) : SettingsTable :=
  match existing with
  | some row => table.update row.id value
  | none => table.insert orgId key value

/- `DELETE FROM settings WHERE org_id`. -/
def deleteOrg
    (table : SettingsTable)
    (orgId : String) : SettingsTable where
  rows := table.rows.filter (·.orgId ≠ orgId)
  nextId := table.nextId
  unique :=
    table.unique.sublist
      (List.Sublist.map SettingsRow.id List.filter_sublist)
  fresh row hRow :=
    table.fresh row (List.mem_of_mem_filter hRow)

/- What a reader of the table finds. -/
def settings (table : SettingsTable) : Settings :=
  fun orgId key =>
    (table.select orgId key).bind SettingsRow.value

end SettingsTable

end Plans

--------------------
-- Statements and settings
--------------------

namespace Plans

open SettingsTable

variable {table : SettingsTable}
variable {orgId key value : String}

theorem isSetting_setValue
    (id : Nat)
    (value : String) :
    isSetting orgId key ∘ setValue id value =
      isSetting orgId key := by
  funext row
  simp only [Function.comp, isSetting, setValue]
  split <;> rfl

theorem select_update
    (table : SettingsTable)
    (id : Nat)
    (value orgId key : String) :
    (table.update id value).select orgId key =
      (table.select orgId key).map (setValue id value) := by
  simp only [select, update, List.find?_map,
    isSetting_setValue]

theorem select_insert
    (table : SettingsTable)
    (orgId key value org k : String) :
    (table.insert orgId key value).select org k =
      (table.select org k).or
        (if orgId = org ∧ key = k then
          some
            { id := table.nextId, orgId := orgId, key := key
              value := some value }
        else
          none) := by
  simp only [SettingsTable.select, SettingsTable.insert,
    List.find?_append, List.find?_singleton, isSetting,
    Bool.and_eq_true, beq_iff_eq]

/- A selected row is in the table, and is of its pair. -/
theorem of_select
    {row : SettingsRow}
    (hSelect : table.select orgId key = some row) :
    row ∈ table.rows ∧ row.orgId = orgId ∧ row.key = key := by
  have hMatch := List.find?_some hSelect
  simp only [isSetting, Bool.and_eq_true, beq_iff_eq]
    at hMatch
  exact ⟨List.mem_of_find?_eq_some hSelect, hMatch⟩

/- Ids tell the selected rows of two pairs apart. -/
theorem pair_eq_of_id_eq
    {row other : SettingsRow}
    {org k : String}
    (hRow : table.select orgId key = some row)
    (hOther : table.select org k = some other)
    (hId : other.id = row.id) :
    org = orgId ∧ k = key := by
  rcases of_select hRow with ⟨hRowMem, rfl, rfl⟩
  rcases of_select hOther with ⟨hOtherMem, rfl, rfl⟩
  have hSame : other = row :=
    List.inj_on_of_nodup_map table.unique hOtherMem hRowMem
      hId
  rw [hSame]
  exact ⟨rfl, rfl⟩

/- A set whose select is still right sets the setting. -/
theorem settings_write
    {existing : Option SettingsRow}
    (hSelect :
      (table.select orgId key).map SettingsRow.id =
        existing.map SettingsRow.id) :
    (table.write existing orgId key value).settings =
      table.settings.set orgId key value := by
  funext org k
  cases existing with
  | none =>
      have hNone : table.select orgId key = none := by
        simpa using hSelect
      simp only [write, SettingsTable.settings,
        select_insert, Settings.set]
      by_cases hSame : org = orgId ∧ k = key
      · rcases hSame with ⟨rfl, rfl⟩
        simp [hNone]
      · have hOther : ¬(orgId = org ∧ key = k) := by
          rintro ⟨rfl, rfl⟩
          exact hSame ⟨rfl, rfl⟩
        rw [if_neg hSame, if_neg hOther, Option.or_none]
  | some seen =>
      cases hRow : table.select orgId key with
      | none => simp [hRow] at hSelect
      | some row =>
          have hId : row.id = seen.id := by
            simpa [hRow] using hSelect
          simp only [write, SettingsTable.settings,
            select_update, Settings.set]
          by_cases hSame : org = orgId ∧ k = key
          · rcases hSame with ⟨rfl, rfl⟩
            simp [hRow, setValue, hId]
          · rw [if_neg hSame]
            cases hOther : table.select org k with
            | none => rfl
            | some other =>
                have hDiffer : other.id ≠ seen.id := by
                  intro hEq
                  exact hSame
                    (pair_eq_of_id_eq hRow hOther
                      (hEq.trans hId.symm))
                simp [setValue, hDiffer]

/- A second row of a pair is read by nobody. -/
theorem settings_insert_taken
    {row : SettingsRow}
    (hSelect : table.select orgId key = some row) :
    (table.insert orgId key value).settings =
      table.settings := by
  funext org k
  simp only [SettingsTable.settings, select_insert]
  by_cases hSame : orgId = org ∧ key = k
  · rcases hSame with ⟨rfl, rfl⟩
    simp [hSelect]
  · rw [if_neg hSame, Option.or_none]

/-
  What the second statement of a set does, where the row it
  updates is still the pair's.
-/
theorem settings_write_cases
    (existing : Option SettingsRow)
    (hRow :
      ∀ row, existing = some row →
        (table.select orgId key).map SettingsRow.id =
          some row.id) :
    (table.write existing orgId key value).settings =
        table.settings.set orgId key value ∨
      (existing = none ∧
        (table.select orgId key).isSome = true ∧
        (table.write existing orgId key value).settings =
          table.settings) := by
  cases existing with
  | some row => exact Or.inl (settings_write (hRow row rfl))
  | none =>
      cases hSelect : table.select orgId key with
      | none =>
          refine Or.inl (settings_write ?_)
          rw [hSelect]
      | some row =>
          exact
            Or.inr ⟨rfl, rfl, settings_insert_taken hSelect⟩

/- A stored text is what a reader gets. -/
theorem get_of_settings
    {default : String}
    (hStored : table.settings orgId key = some value) :
    table.get orgId key default = value := by
  cases hSelect : table.select orgId key with
  | none => simp [SettingsTable.settings, hSelect] at hStored
  | some row =>
      have hValue : row.value = some value := by
        simpa [SettingsTable.settings, hSelect] using hStored
      simp [SettingsTable.get, hSelect, hValue]

/- A pair keeps its row once it has one. -/
theorem select_id_write
    {row : SettingsRow}
    {org k : String}
    (existing : Option SettingsRow)
    (hSelect : table.select org k = some row) :
    ((table.write existing orgId key value).select org k).map
        SettingsRow.id =
      some row.id := by
  cases existing with
  | some seen => simp [write, select_update, hSelect]
  | none => simp [write, select_insert, hSelect]

/- A set leaves the other settings. -/
theorem select_write_other
    {org k : String}
    (existing : Option SettingsRow)
    (hRow :
      ∀ row, existing = some row →
        (table.select orgId key).map SettingsRow.id =
          some row.id)
    (hOther : ¬ (org = orgId ∧ k = key)) :
    (table.write existing orgId key value).select org k =
      table.select org k := by
  cases existing with
  | none =>
      unfold SettingsTable.write
      dsimp only
      rw [select_insert, if_neg, Option.or_none]
      rintro ⟨rfl, rfl⟩
      exact hOther ⟨rfl, rfl⟩
  | some seen =>
      unfold SettingsTable.write
      dsimp only
      rw [select_update]
      cases hFind : table.select org k with
      | none => rfl
      | some other =>
          rcases Option.map_eq_some_iff.mp (hRow seen rfl) with
            ⟨row, hSelect, hId⟩
          have hDiffer : other.id ≠ seen.id := by
            intro hSame
            exact hOther
              (pair_eq_of_id_eq hSelect hFind
                (hSame.trans hId.symm))
          rw [Option.map_some]
          unfold setValue
          rw [if_neg hDiffer]

theorem get_write_other
    {org k : String}
    (existing : Option SettingsRow)
    (hRow :
      ∀ row, existing = some row →
        (table.select orgId key).map SettingsRow.id =
          some row.id)
    (hOther : ¬ (org = orgId ∧ k = key))
    (default : String) :
    (table.write existing orgId key value).get org k default =
      table.get org k default := by
  unfold SettingsTable.get
  rw [select_write_other existing hRow hOther]

/- The setting itself is set, or hidden behind another row. -/
theorem get_write_same
    (value : String)
    (existing : Option SettingsRow)
    (hRow :
      ∀ row, existing = some row →
        (table.select orgId key).map SettingsRow.id =
          some row.id)
    (default : String) :
    (table.write existing orgId key value).get orgId key
        default = value ∨
      (table.write existing orgId key value).get orgId key
          default =
        table.get orgId key default := by
  have hCases :=
    @settings_write_cases table orgId key value existing hRow
  rcases hCases with hWritten | ⟨rfl, hTaken, _⟩
  · left
    apply get_of_settings
    rw [hWritten]
    exact if_pos ⟨rfl, rfl⟩
  · right
    rcases Option.isSome_iff_exists.mp hTaken with
      ⟨row, hSelect⟩
    unfold SettingsTable.get SettingsTable.write
    dsimp only
    rw [select_insert, hSelect, Option.some_or]

end Plans

end SentinelCommand
